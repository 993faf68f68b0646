import SegmentedJournal.Proofs.Reached
/-!
# Gaps before a reset's log

Durable data may end before the number that a writer has to go on with.  A reset notices such a gap
if there are entries in the queue, and only then (`Writer.checkFrontier_eq_entryMissing_iff`): then
it opens its log where durable data end, or fails.  With an empty queue it opens the log at the next
number, wherever durable data end before it, and the numbers in between are skipped
(`Writer.Reached.resumes`).
-/

namespace SegmentedJournal.Writer

open Memory (Stream)

variable {writer : Writer Stream} {medium : Medium Memory} {frontier : Frontier}
  {surveyed : Writer Stream × Medium Memory} {expected lower found : UInt64}

/-- Entries are missing if durable data end before the first entry of the queue. -/
theorem checkFrontier_eq_entryMissing_iff :
    writer.checkFrontier expected = .error (.entryMissing lower found) ↔
      lower = expected ∧ expected < found ∧
        ∃ first ∈ writer.unflushed.head?, first.sequence = found := by
  unfold checkFrontier
  cases writer.unflushed.head? with
  | none => by_cases hahead : writer.next < expected <;> simp [hahead]
  | some first =>
      by_cases hgap : expected < first.sequence
      · simp only [hgap, if_true, Except.error.injEq, JournalError.entryMissing.injEq,
          Option.mem_some_iff, exists_eq_left']
        constructor
        · rintro ⟨rfl, rfl⟩
          exact ⟨rfl, hgap, rfl⟩
        · rintro ⟨rfl, -, rfl⟩
          exact ⟨rfl, rfl⟩
      · have hno : ¬ (expected < found ∧ first.sequence = found) := by
          rintro ⟨hlt, rfl⟩
          exact hgap hlt
        by_cases hahead : writer.next < expected <;> simp [hgap, hahead, hno]

/-- **Where a reset goes on**, whatever writer was reached and whatever became of the medium: if
durable data end before `expected`, entries are reported missing just if the queue has entries and
`expected` is before the first of them.  A reset that succeeds opens a log at `expected` if the
queue has entries, but at the next number if it has none, even if `expected` is before that. -/
theorem Reached.resumes (h : writer.Reached) (hsound : writer.poisoned = false)
    (hneeds : writer.needsReset = true)
    (hsurvey : survey (writer, medium) = .ok (frontier, expected) surveyed) :
    (∀ lower found, (∃ after, reset (writer, medium) =
        .error (.error (.entryMissing lower found)) after) ↔
      lower = expected ∧ expected < found ∧
        ∃ first ∈ writer.unflushed.head?, first.sequence = found) ∧
    ∀ after, reset (writer, medium) = .ok () after →
      expected ≤ writer.next ∧ ∃ log ∈ after.1.log,
        log.segment.start = if writer.unflushed = [] then writer.next else expected := by
  have htidy := h.tidy hsound
  obtain ⟨hgaveUp, -, -⟩ := (ends_survey (htidy.adrift hneeds) medium).of_ok hsurvey
  have hadrift : ∀ log ∈ surveyed.1.log, log.Adrift := hgaveUp ▸ adrift_gaveUp writer
  cases hcheck : writer.checkFrontier expected with
  | error e =>
      have hreset := reset_of_checkFrontier_error hsurvey hcheck
      rw [hreset]
      refine ⟨fun lower found => ?_, fun _ hok => (by cases hok)⟩
      rw [← checkFrontier_eq_entryMissing_iff, hcheck]
      constructor
      · rintro ⟨after, heq⟩
        cases heq
        rfl
      · intro heq
        cases heq
        exact ⟨surveyed, rfl⟩
  | ok _ =>
      have hreset := reset_of_checkFrontier_ok hsurvey hcheck
      rw [hreset]
      constructor
      · intro lower found
        rw [← checkFrontier_eq_entryMissing_iff, hcheck]
        constructor
        · -- A rebuilding never fails fatally.
          rintro ⟨after, herror⟩
          have hmild := ((ends_rebuild frontier hadrift surveyed.2).of_error herror).1
          cases hmild
        · intro heq
          cases heq
      · intro after hok
        obtain ⟨-, -, -, log, hlog, hstart⟩ :=
          (ends_rebuild frontier hadrift surveyed.2).of_ok hok
        refine ⟨(checkFrontier_eq_ok_iff.1 hcheck).2, log, hlog, ?_⟩
        rw [hstart, (htidy.remaining hcheck).2]

/-- For example, where what was written since the last flush was lost with all before it. -/
theorem resumes_not_at_gap :
    let journal := Journal.rooted "journal" { gcEnabled := false }
    let medium : Medium Memory := { storage := { publishing := .onFlush } }
    let moves : List Move := [.write ⟨0, [1]⟩, .arm (.flush .lost), .flush]
    ∃ course, Course.started? journal 10 medium = some course ∧
      let state := ((course.run moves).writer, (course.run moves).medium)
      ∃ after, reset state = .error (.error (.entryMissing 0 10)) after := by
  intro journal medium moves
  have hrun : (Course.started? journal 10 medium).map (fun course =>
      let writer := (course.run moves).writer
      (writer.poisoned, writer.needsReset, writer.unflushed,
        (survey.value? (writer, (course.run moves).medium)).map Prod.snd)) =
      some (false, true, [⟨10, [1]⟩], some 0) := by
    decide +kernel
  obtain ⟨course, hcourse, hchecked⟩ := Option.map_eq_some_iff.1 hrun
  refine ⟨course, hcourse, ?_⟩
  simp only [Prod.mk.injEq, Option.map_eq_some_iff] at hchecked
  obtain ⟨hsound, hneeds, hqueue, ⟨frontier, expected⟩, hsurvey, rfl⟩ := hchecked
  have hreached := (Reached.started (Course.start_of_started? hcourse)).run moves
  obtain ⟨hmissing, -⟩ := hreached.resumes hsound hneeds (Action.eq_ok_leaves hsurvey)
  refine (hmissing 0 10).2 ⟨rfl, by decide, ⟨10, [1]⟩, ?_, rfl⟩
  rw [hqueue]
  rfl

/-- The gap is not noticed where nothing was written yet: durable data end at 0, and the log starts
at 10. -/
theorem resumes_behind_gap :
    let journal := Journal.rooted "journal" { gcEnabled := false }
    let medium : Medium Memory := { storage := { publishing := .onFlush } }
    let moves : List Move := [.arm (.write 0 .lost), .write ⟨0, [1]⟩]
    ∃ course, Course.started? journal 10 medium = some course ∧
      let state := ((course.run moves).writer, (course.run moves).medium)
      state.1.needsReset = true ∧
        (∃ frontier surveyed, survey state = .ok (frontier, 0) surveyed) ∧
        ∃ after, reset state = .ok () after ∧ ∃ log ∈ after.1.log, log.segment.start = 10 := by
  intro journal medium moves
  have hrun : (Course.started? journal 10 medium).map (fun course =>
      let state := ((course.run moves).writer, (course.run moves).medium)
      (state.1.needsReset, (survey.value? state).map Prod.snd, reset.value? state,
        (reset.leaves state).1.log.map fun log => log.segment.start)) =
      some (true, some 0, some (), some 10) := by
    decide +kernel
  obtain ⟨course, hcourse, hchecked⟩ := Option.map_eq_some_iff.1 hrun
  refine ⟨course, hcourse, ?_⟩
  simp only [Prod.mk.injEq, Option.map_eq_some_iff] at hchecked
  obtain ⟨hneeds, ⟨⟨frontier, expected⟩, hsurvey, rfl⟩, hreset, log, hlog, hstart⟩ := hchecked
  exact ⟨hneeds, ⟨frontier, _, Action.eq_ok_leaves hsurvey⟩, _, Action.eq_ok_leaves hreset,
    log, hlog, hstart⟩

end SegmentedJournal.Writer
