import SegmentedJournal.Proofs.Reached
/-!
# Resets that are refused

A reset is refused if the probe fails, or if what it finds contradicts what the writer knows.  A
refusal repairs nothing: the medium is untouched, and of the writer only the stream of the open log
is let go (`Writer.Tidy.refused`).

Whether a reset is refused, and with which fatal error, the files and the writer decide between them
(`Writer.objection?`, `Writer.Tidy.objection?_of_fatal`).  Since a refusal changes neither, it is
repeated by every later write and flush, unless a failure fires there
(`Course.Refusing.run`, `Writer.Reached.refuses`).
-/

namespace SegmentedJournal

open Memory (Stream)
open Medium (Foiled Keeps Untouched)

/-- The numbers in an error that says the journal is ahead. -/
def JournalError.ahead? : JournalError → Option (UInt64 × UInt64)
  | .journalAhead expected next => some (expected, next)
  | _ => none

theorem JournalError.eq_of_ahead? {e : JournalError} {expected next : UInt64}
    (h : e.ahead? = some (expected, next)) : e = .journalAhead expected next := by
  unfold ahead? at h
  split at h
  · cases h
    rfl
  · cases h

namespace Writer

variable {writer : Writer Stream} {medium : Medium Memory} {after : Writer Stream × Medium Memory}
  {e : JournalError}

/-! ### One refusal -/

/-- The probe of a reset fails, or what it finds is a contradiction. -/
def Refused (writer : Writer Stream) (medium : Medium Memory) (e : JournalError) : Prop :=
  e.isFatal = true ∨ ∃ surveyed, survey (writer, medium) = .error (.error e) surveyed

theorem gaveUp_gaveUp (writer : Writer Stream) : writer.gaveUp.gaveUp = writer.gaveUp := by
  unfold gaveUp
  cases writer.log <;> rfl

/-- A reset that fails does so in the survey, at the frontier, or later and mildly. -/
theorem reset_error_cases (hreset : reset (writer, medium) = .error (.error e) after)
    (hadrift : ∀ log ∈ writer.log, log.Adrift) :
    survey (writer, medium) = .error (.error e) after ∨
      ∃ frontier expected surveyed,
        survey (writer, medium) = .ok (frontier, expected) surveyed ∧
        (writer.checkFrontier expected = .error e ∧ after = surveyed ∨ e.isFatal = false) := by
  have hends := ends_survey hadrift medium
  cases hsurvey : survey (writer, medium) with
  | error failure surveyed =>
      rw [reset_of_survey_error hsurvey] at hreset
      cases hreset
      exact .inl rfl
  | ok found surveyed =>
      obtain ⟨frontier, expected⟩ := found
      obtain ⟨hgaveUp, -, -⟩ := hends.of_ok hsurvey
      refine .inr ⟨frontier, expected, surveyed, rfl, ?_⟩
      cases hcheck : writer.checkFrontier expected with
      | error e' =>
          rw [reset_of_checkFrontier_error hsurvey hcheck] at hreset
          cases hreset
          exact .inl ⟨rfl, rfl⟩
      | ok _ =>
          -- Behind the check nothing fails but the medium.
          rw [reset_of_checkFrontier_ok hsurvey hcheck] at hreset
          have hadrift' : ∀ log ∈ surveyed.1.log, log.Adrift := hgaveUp ▸ adrift_gaveUp writer
          exact .inr ((ends_rebuild frontier hadrift' surveyed.2).of_error hreset).1

/-- A reset that is refused leaves the medium untouched and lets only a stream go. -/
theorem Tidy.refused (h : writer.Tidy) (hneeds : writer.needsReset = true)
    (hreset : reset (writer, medium) = .error (.error e) after)
    (hrefused : writer.Refused medium e) :
    after.1 = writer.gaveUp ∧ Untouched medium after.2 := by
  have hends := ends_survey (h.adrift hneeds) medium
  rcases reset_error_cases hreset (h.adrift hneeds) with
    hsurvey | ⟨frontier, expected, surveyed, hsurvey, ⟨-, rfl⟩ | hmild⟩
  · exact hends.of_error hsurvey
  · obtain ⟨hgaveUp, huntouched, -⟩ := hends.of_ok hsurvey
    exact ⟨hgaveUp, huntouched⟩
  · rcases hrefused with hfatal | ⟨failed, herror⟩
    · rw [hmild] at hfatal
      cases hfatal
    · rw [hsurvey] at herror
      cases herror

/-! ### What the files object to -/

/-- What a survey of the files objects to, if to anything. -/
def objection? (writer : Writer Stream) (files : PathMap Bytes) : Option JournalError :=
  match writer.journal.frontierOf files with
  | .error e => some e
  | .ok frontier =>
    match frontier.next?.map writer.checkFrontier with
    | some (.error e) => some e
    | _ => none

/-- A fatal error is what the files object to. -/
theorem Tidy.objection?_of_fatal (h : writer.Tidy) (hneeds : writer.needsReset = true)
    (hhonest : medium.Honest) (hreset : reset (writer, medium) = .error (.error e) after)
    (hfatal : e.isFatal = true) : writer.objection? medium.storage.files = some e := by
  have hends := ends_survey_frontierOf (h.adrift hneeds) hhonest
  unfold objection?
  rcases reset_error_cases hreset (h.adrift hneeds) with
    hsurvey | ⟨frontier, expected, surveyed, hsurvey, ⟨hcheck, rfl⟩ | hmild⟩
  · obtain ⟨-, ⟨herror, -⟩ | ⟨hmild, -⟩⟩ := hends.of_error hsurvey
    · rw [herror]
    · rw [hmild] at hfatal
      cases hfatal
  · obtain ⟨-, ⟨hfrontier, -⟩, hnext⟩ := hends.of_ok hsurvey
    simp only [hfrontier, hnext, Option.map_some, hcheck]
  · rw [hmild] at hfatal
    cases hfatal

/-- What the files object to fails every reset, unless a call fails before. -/
theorem Tidy.ensures_reset_of_objection? (h : writer.Tidy) (hneeds : writer.needsReset = true)
    (hhonest : medium.Honest) (hobjection : writer.objection? medium.storage.files = some e) :
    reset.Ensures (writer, medium) (fun _ _ => False)
      (fun e' s => s.1 = writer.gaveUp ∧ Untouched medium s.2 ∧
        (e' = e ∧ Keeps medium s.2 ∨ Foiled medium s.2)) := by
  have hends := ends_survey (h.adrift hneeds) medium
  have hfiles := ends_survey_frontierOf (h.adrift hneeds) hhonest
  cases hsurvey : survey (writer, medium) with
  | error failure surveyed =>
      cases failure with
      | error e' =>
          obtain ⟨hgaveUp, huntouched⟩ := hends.of_error hsurvey
          refine Action.ensures_of_error (reset_of_survey_error hsurvey)
            ⟨hgaveUp, huntouched, ?_⟩
          obtain ⟨-, ⟨herror, hkeeps⟩ | ⟨-, hfoiled⟩⟩ := hfiles.of_error hsurvey
          · rw [objection?, herror] at hobjection
            exact .inl ⟨Option.some.inj hobjection, hkeeps⟩
          · exact .inr hfoiled
      | crash c =>
          obtain ⟨frontier, hfrontier, hnext⟩ := hfiles.of_crash hsurvey
          simp only [objection?, hfrontier, hnext] at hobjection
          cases hobjection
  | ok found surveyed =>
      obtain ⟨frontier, expected⟩ := found
      obtain ⟨hgaveUp, huntouched, -⟩ := hends.of_ok hsurvey
      obtain ⟨-, ⟨hfrontier, hkeeps⟩, hnext⟩ := hfiles.of_ok hsurvey
      have hcheck : writer.checkFrontier expected = .error e := by
        simp only [objection?, hfrontier, hnext, Option.map_some] at hobjection
        cases hcheck : writer.checkFrontier expected with
        | ok _ =>
            rw [hcheck] at hobjection
            cases hobjection
        | error e' =>
            rw [hcheck] at hobjection
            exact congrArg Except.error (Option.some.inj hobjection)
      exact Action.ensures_of_error (reset_of_checkFrontier_error hsurvey hcheck)
        ⟨hgaveUp, huntouched, .inl ⟨rfl, hkeeps⟩⟩

/-! ### Operations that are refused -/

/-- An operation of a writer that needs a reset fails as the reset does. -/
theorem operation_of_settle_error {α : Type}
    {x : Action JournalError (Writer Stream × Medium Memory) α} (hsound : writer.poisoned = false)
    (hx : x (writer, medium) = .error (.error e) after) :
    operation x (writer, medium) = .error (.error e) after := by
  unfold operation
  dsimp only
  rw [hsound, if_neg Bool.false_ne_true, hx]

theorem write_of_reset_error (hopen : writer.closed = false) (hsound : writer.poisoned = false)
    (hneeds : writer.needsReset = true)
    (hreset : reset (writer, medium) = .error (.error e) after) (entry : Entry) :
    write entry (writer, medium) = .error (.error e) after := by
  refine operation_of_settle_error hsound ?_
  unfold append
  rw [Action.get_bind_apply]
  dsimp only
  rw [hopen, if_neg Bool.false_ne_true]
  exact Action.bind_of_error ((settle_of_needsReset hneeds).trans hreset)

theorem flush_of_reset_error (hopen : writer.closed = false) (hsound : writer.poisoned = false)
    (hneeds : writer.needsReset = true)
    (hreset : reset (writer, medium) = .error (.error e) after) :
    flush (writer, medium) = .error (.error e) after := by
  refine operation_of_settle_error hsound ?_
  unfold push
  rw [Action.get_bind_apply]
  dsimp only
  rw [hopen, if_neg Bool.false_ne_true]
  exact Action.bind_of_error ((settle_of_needsReset hneeds).trans hreset)

end Writer

/-! ### Refusals one after the other -/

namespace Course

variable {course : Course} {e : JournalError} {moves : List Move} {move : Move}

/-- The writer of a course needs a reset, and the files object to it. -/
structure Refusing (course : Course) (e : JournalError) : Prop where
  /-- The writer is tidy. -/
  tidy : course.writer.Tidy
  /-- It needs a reset. -/
  needsReset : course.writer.needsReset = true
  /-- It is open. -/
  opened : course.writer.closed = false
  /-- It has not crashed. -/
  sound : course.writer.poisoned = false
  /-- It has let its stream go. -/
  gaveUp : course.writer.gaveUp = course.writer
  /-- Failures are only failures. -/
  honest : course.medium.Honest
  /-- The files object. -/
  objection : course.writer.objection? course.medium.storage.files = some e

/-- A write or a flush is refused, or a call fails in it. -/
theorem Refusing.step (h : course.Refusing e)
    (hmove : move = .flush ∨ ∃ entry, move = .write entry) :
    ∃ e' medium, course.step move =
        { course with medium, failures := course.failures ++ [.error e'] } ∧
      Untouched course.medium medium ∧
      (e' = e ∧ Keeps course.medium medium ∨ Foiled course.medium medium) := by
  obtain ⟨e', ⟨writer, medium⟩, hreset, hgaveUp, huntouched, hend⟩ :
      ∃ e' s, Writer.reset (course.writer, course.medium) = .error (.error e') s ∧
        s.1 = course.writer.gaveUp ∧ Untouched course.medium s.2 ∧
        (e' = e ∧ Keeps course.medium s.2 ∨ Foiled course.medium s.2) := by
    rcases (h.tidy.ensures_reset_of_objection? h.needsReset h.honest h.objection).ok_or_error with
      ⟨_, _, _, hnever⟩ | hrefused
    · exact hnever.elim
    · exact hrefused
  obtain rfl : writer = course.writer := hgaveUp.trans h.gaveUp
  refine ⟨e', medium, ?_, huntouched, hend⟩
  rcases hmove with rfl | ⟨entry, rfl⟩
  · unfold Course.step
    dsimp only
    rw [Writer.flush_of_reset_error h.opened h.sound h.needsReset hreset]
  · unfold Course.step
    dsimp only
    rw [Writer.write_of_reset_error h.opened h.sound h.needsReset hreset]

/-- **Refusals repeat**: as long as only writes and flushes follow, the medium stays untouched and
the writer as it is, and each of them fails with the same error unless a failure fires. -/
theorem Refusing.run (h : course.Refusing e)
    (hmoves : ∀ move ∈ moves, move = .flush ∨ ∃ entry, move = .write entry) :
    ∃ errors medium, course.run moves =
        { course with medium, failures := course.failures ++ errors } ∧
      Untouched course.medium medium ∧ medium.armed ≤ course.medium.armed ∧
      (medium.armed = course.medium.armed → errors = List.replicate moves.length (.error e)) := by
  induction moves generalizing course with
  | nil => exact ⟨[], course.medium, by simp, .refl _, Nat.le_refl _, fun _ => rfl⟩
  | cons move moves ih =>
      obtain ⟨e', medium, hstep, huntouched, hend⟩ := h.step (hmoves move List.mem_cons_self)
      have hkeeps : Keeps course.medium medium := hend.elim And.right Foiled.toKeeps
      have hnext : Refusing { course with
          medium, failures := course.failures ++ [.error e'] } e :=
        ⟨h.tidy, h.needsReset, h.opened, h.sound, h.gaveUp, hkeeps.toQuieter.honest h.honest,
          huntouched.files_eq ▸ h.objection⟩
      obtain ⟨errors, medium', hrun, huntouched', hle, hsame⟩ :=
        ih hnext fun other hother => hmoves other (List.mem_cons_of_mem _ hother)
      refine ⟨.error e' :: errors, medium', ?_, huntouched.trans huntouched',
        Nat.le_trans hle hkeeps.armed_le, ?_⟩
      · rw [run_cons, hstep, hrun]
        simp
      · -- A failure that fired in this step would be missing in the end.
        intro harmed
        rcases hend with ⟨rfl, -⟩ | hfoiled
        · have hle' := hkeeps.armed_le
          dsimp only at hsame hle
          rw [List.length_cons, List.replicate_succ, hsame (by omega)]
        · have hlt := hfoiled.armed_lt
          dsimp only at hle
          omega

end Course

namespace Writer

variable {writer : Writer Stream} {medium : Medium Memory} {after : Writer Stream × Medium Memory}
  {e : JournalError}

/-- **A refused reset repairs nothing**, whatever writer was reached and whatever became of the
medium meanwhile: if the probe fails, or the error is fatal, no file was made, removed, renamed or
written to, and the writer has only let a stream go; it still needs the reset.  Where the error was
fatal and failures are only failures, every write and flush that follows fails with it, too, unless
another failure fires, and changes nothing either. -/
theorem Reached.refuses (h : writer.Reached) (hsound : writer.poisoned = false)
    (hneeds : writer.needsReset = true)
    (hreset : reset (writer, medium) = .error (.error e) after)
    (hrefused : writer.Refused medium e) :
    (after.1 = writer.gaveUp ∧ Untouched medium after.2) ∧
    (writer.closed = false →
      (∀ entry, write entry (writer, medium) = .error (.error e) after) ∧
      flush (writer, medium) = .error (.error e) after ∧
      (e.isFatal = true → medium.Honest → ∀ moves : List Move,
        (∀ move ∈ moves, move = .flush ∨ ∃ entry, move = .write entry) →
        let course := (Course.begun after.1 after.2).run moves
        course.writer = after.1 ∧ Untouched after.2 course.medium ∧
          (course.medium.armed = after.2.armed →
            course.failures = List.replicate moves.length (.error e)))) := by
  have htidy := h.tidy hsound
  obtain ⟨hgaveUp, huntouched⟩ := htidy.refused hneeds hreset hrefused
  refine ⟨⟨hgaveUp, huntouched⟩, fun hopen => ⟨write_of_reset_error hopen hsound hneeds hreset,
    flush_of_reset_error hopen hsound hneeds hreset, ?_⟩⟩
  intro hfatal hhonest moves hmoves course
  have hobjection := htidy.objection?_of_fatal hneeds hhonest hreset hfatal
  obtain ⟨-, -, hend⟩ := (htidy.ensures_reset_of_objection? hneeds hhonest hobjection).ends
    |>.of_error (C := True) hreset
  have hkeeps : Keeps medium after.2 := hend.elim And.right Foiled.toKeeps
  obtain ⟨writer', medium'⟩ := after
  obtain rfl : writer' = writer.gaveUp := hgaveUp
  have hrefusing : (Course.begun writer.gaveUp medium').Refusing e := by
    refine ⟨htidy.of_queue_eq rfl rfl fun _ => adrift_gaveUp writer, hneeds, hopen, hsound,
      gaveUp_gaveUp writer, hkeeps.toQuieter.honest hhonest, ?_⟩
    rw [← hobjection]
    exact congrArg writer.objection? huntouched.files_eq
  obtain ⟨errors, last, hrun, huntouched', -, hsame⟩ := hrefusing.run hmoves
  have hcourse : course = { Course.begun writer.gaveUp medium' with
      medium := last, failures := errors } := hrun
  rw [hcourse]
  exact ⟨rfl, huntouched', hsame⟩

/-- For example, once another writer has sealed the log at 5. -/
theorem refuses_ahead :
    let journal := Journal.rooted "journal" { gcEnabled := false }
    let medium : Medium Memory := { storage := { publishing := .onFlush } }
    let moves : List Move := [.write ⟨0, [1]⟩, .arm (.write 0 .lost), .write ⟨0, [2]⟩]
    let later : List Move := [.flush, .write ⟨0, [3]⟩]
    ∃ course, Course.started? journal 0 medium = some course ∧
      let writer := (course.run moves).writer
      let storage := { (course.run moves).medium.storage with
        files := PathMap.empty.insert (journal.log 0 5).location [] }
      let medium := { (course.run moves).medium with storage }
      ∃ after, reset (writer, medium) = .error (.error (.journalAhead 5 1)) after ∧
        after.1 = writer.gaveUp ∧ Untouched medium after.2 ∧
        ((Course.begun after.1 after.2).run later).failures =
          [.error (.journalAhead 5 1), .error (.journalAhead 5 1)] := by
  intro journal medium moves later
  have hrun : (Course.started? journal 0 medium).map (fun course =>
      let writer := (course.run moves).writer
      let storage := { (course.run moves).medium.storage with
        files := PathMap.empty.insert (journal.log 0 5).location [] }
      let medium := { (course.run moves).medium with storage }
      let after := reset.leaves (writer, medium)
      let last := ((Course.begun after.1 after.2).run later).medium
      writer.needsReset && !writer.poisoned && !writer.closed && medium.callFaults.isEmpty &&
        decide (last.armed = after.2.armed) &&
        decide ((reset.error? (writer, medium)).bind JournalError.ahead? = some (5, 1))) =
      some true := by
    decide +kernel
  obtain ⟨course, hcourse, hchecked⟩ := Option.map_eq_some_iff.1 hrun
  refine ⟨course, hcourse, ?_⟩
  intro writer storage medium
  simp only [Bool.and_eq_true, decide_eq_true_eq, Bool.not_eq_true', List.isEmpty_iff] at hchecked
  obtain ⟨⟨⟨⟨⟨hneeds, hsound⟩, hopen⟩, hnone⟩, harmed⟩, hahead⟩ := hchecked
  have herror : reset.error? (writer, medium) = some (.journalAhead 5 1) := by
    obtain ⟨e, herror, he⟩ := Option.bind_eq_some_iff.1 hahead
    rw [herror, JournalError.eq_of_ahead? he]
  have hreached : writer.Reached := (Reached.started (Course.start_of_started? hcourse)).run moves
  have hreset := Action.eq_error_leaves herror
  obtain ⟨⟨hgaveUp, huntouched⟩, hlater⟩ := hreached.refuses hsound hneeds hreset (.inl rfl)
  obtain ⟨-, -, hrepeat⟩ := hlater hopen
  have hhonest : medium.Honest := by
    intro fault hfault
    have hnever : fault ∈ [] := hnone ▸ hfault
    cases hnever
  obtain ⟨-, -, hfailures⟩ := hrepeat rfl hhonest later (by
    intro move hmove
    simp only [later, List.mem_cons, List.not_mem_nil, or_false] at hmove
    exact hmove.imp_right fun heq => ⟨_, heq⟩)
  exact ⟨_, hreset, hgaveUp, huntouched, hfailures harmed⟩

end Writer

end SegmentedJournal
