import SegmentedJournal.Proofs.Reset
import SegmentedJournal.Proofs.Storages
/-!
# Resets on any medium

A reset has two halves.  It gives the open log up and asks the medium where durable data ends
(`Writer.survey`), and if that is no contradiction it rebuilds the end of the journal from there
(`Writer.rebuild`, `Writer.reset_eq`).

Here nothing is known of the medium: others may have changed the files, and calls may fail, answer
wrongly or crash.  A survey changes nothing (`Writer.ends_survey`), and where a rebuilding fails the
error is not fatal (`Writer.ends_rebuild`).  The writer is tidy (`Writer.Tidy`): its queue is a run
of entries that ends before the next number, and where it needs a reset it has no stream that can be
used.  A reset leaves it so, whatever becomes of it (`Writer.Tidy.ends_reset`).
-/

namespace SegmentedJournal

open Memory (Stream)
open Medium (Foiled Quieter)

/-! ### Streams on any medium -/

namespace Medium

/-- A stream that octets could not be written to cannot be used. -/
theorem ensures_write_of_any (bytes : Bytes) (stream : Stream) (medium : Medium Memory) :
    (write bytes).Ensures (stream, medium) (fun _ _ => True)
      (fun _ (stream', _) => stream'.phase ≠ .live) := by
  rw [write, Action.ensures_ite]
  refine ⟨fun _ => trivial, fun _ => ?_⟩
  rw [ensures_onStream]
  simp only [Storage.write, Stream.write]
  cases hrefusal : stream.refusal? with
  | some error =>
      intro hlive
      rw [Stream.refusal?_eq_none_iff.2 hlive] at hrefusal
      cases hrefusal
  | none =>
      cases Fault.takeWrite medium.storage.faults with
      | mk fired faults => cases fired <;> simp [Stream.fail]

/-- A stream that could not be flushed cannot be used. -/
theorem ensures_flush_of_any (stream : Stream) (medium : Medium Memory) :
    (flush : Action IoError (Stream × Medium Memory) Unit).Ensures (stream, medium)
      (fun _ _ => True) (fun _ (stream', _) => stream'.phase ≠ .live) := by
  rw [flush, ensures_onStream]
  simp only [Storage.flush, Stream.flush]
  cases hrefusal : stream.refusal? with
  | some error =>
      intro hlive
      rw [Stream.refusal?_eq_none_iff.2 hlive] at hrefusal
      cases hrefusal
  | none =>
      cases medium.storage.publishing with
      | onClose => trivial
      | onFlush =>
          cases Fault.takeFlush medium.storage.faults with
          | mk fired faults => cases fired <;> simp [Stream.fail]

end Medium

namespace OpenLog

variable {log : OpenLog Stream}

theorem adrift_of_stream_eq_none (h : log.stream = none) : log.Adrift := by
  intro stream hstream
  rw [h] at hstream
  cases hstream

/-- An entry is appended, or the log has no stream that can be used. -/
theorem ensures_write_of_any (entry : Entry) (log : OpenLog Stream) (medium : Medium Memory) :
    (write entry).Ensures (log, medium) (fun _ s => s.1.segment = log.segment)
      (fun e s => s.1.Adrift ∧ e.isFatal = false) := by
  rw [write, Action.ensures_bind, Action.ensures_get]
  dsimp only
  cases hstream : log.stream with
  | none => exact ⟨adrift_of_stream_eq_none hstream, rfl⟩
  | some stream =>
      dsimp only
      rw [Action.ensures_bind, ensures_onStream]
      refine (Medium.ensures_write_of_any entry.encode stream medium).mono ?_ ?_
      · intro _ _ _
        exact rfl
      · rintro e ⟨stream', after⟩ hbroken
        refine ⟨?_, rfl⟩
        rintro _ ⟨⟩
        exact hbroken

theorem ensures_writeAll_of_any (entries : List Entry) (log : OpenLog Stream)
    (medium : Medium Memory) :
    (writeAll entries).Ensures (log, medium) (fun _ s => s.1.segment = log.segment)
      (fun e s => s.1.Adrift ∧ e.isFatal = false) := by
  refine ensures_writeAll (I := fun _ s => s.1.segment = log.segment) ?_ rfl
  rintro _ entry _ ⟨log', after⟩ - hsegment
  refine (ensures_write_of_any entry log' after).mono ?_ (fun _ _ h => h)
  intro _ s hsegment'
  exact hsegment'.trans hsegment

theorem ensures_flush_of_any (log : OpenLog Stream) (medium : Medium Memory) :
    flush.Ensures (log, medium) (fun _ _ => True) (fun _ s => s.1.Adrift) := by
  rw [flush, Action.ensures_bind, Action.ensures_get]
  dsimp only
  cases hstream : log.stream with
  | none => trivial
  | some stream =>
      dsimp only
      rw [ensures_onStream]
      refine (Medium.ensures_flush_of_any stream medium).mono (fun _ _ _ => trivial) ?_
      rintro e ⟨stream', after⟩ hbroken
      rintro _ ⟨⟩
      exact hbroken

/-- A log is given up, whatever becomes of its stream. -/
theorem ends_abandon (log : OpenLog Stream) (medium : Medium Memory) :
    abandon.Ends (log, medium) (fun _ s => s.1 = { log with stream := none })
      (fun _ s => s.1 = { log with stream := none }) True := by
  rw [abandon, Action.ends_bind]
  show Action.Ends _ ({ log with stream := none }, medium) _ _ _
  cases log.stream with
  | none => exact rfl
  | some stream =>
      dsimp only
      rw [Action.ends_bind, Action.ends_attempt, Action.ends_onSecond]
      refine (Action.ends_run _ _).mono (fun _ _ _ => rfl) ?_
      intro e after _
      dsimp only
      rw [Action.ends_onSecond]
      exact (Action.ends_run _ _).mono (fun _ _ _ => rfl) (fun _ _ _ => rfl)

/-- A log that is committed keeps no stream, whether or not the commit succeeds. -/
theorem ends_commit (journal : Journal) (next : UInt64) (log : OpenLog Stream)
    (medium : Medium Memory) :
    (commit journal next).Ends (log, medium) (fun _ s => s.1.stream = none)
      (fun _ s => s.1.stream = none) True := by
  rw [commit, Action.ends_bind, Action.ends_get]
  dsimp only
  rw [Action.ends_bind]
  show Action.Ends _ ({ log with stream := none }, medium) _ _ _
  cases log.stream with
  | none =>
      dsimp only
      rw [Action.ends_onSecond]
      exact (Action.ends_run _ _).mono (fun _ _ _ => rfl) (fun _ _ _ => rfl)
  | some stream =>
      dsimp only
      rw [Action.ends_bind, Action.ends_onSecond]
      refine (Action.ends_run _ _).mono ?_ (fun _ _ _ => rfl)
      intro _ after _
      rw [Action.ends_onSecond]
      exact (Action.ends_run _ _).mono (fun _ _ _ => rfl) (fun _ _ _ => rfl)

end OpenLog

/-- The first sequence number that is not durable, unless that is beyond the greatest word. -/
def Frontier.next? (frontier : Frontier) : Option UInt64 :=
  match frontier.lastPersisted with
  | none => some 0
  | some last => if last + 1 = 0 then none else some (last + 1)

theorem Frontier.endsIn_next {ε σ : Type} (frontier : Frontier) (s : σ) (Q : UInt64 → σ → Prop)
    (E : ε → σ → Prop) (K : σ → Prop) :
    (frontier.next : Action ε σ UInt64).EndsIn s Q E K ↔
      match frontier.next? with
      | none => K s
      | some n => Q n s := by
  unfold next next?
  cases frontier.lastPersisted with
  | none => rfl
  | some last =>
      dsimp only
      rw [Action.endsIn_successor]
      split <;> rfl

theorem Frontier.ends_next {ε σ : Type} (frontier : Frontier) (s : σ) (Q : UInt64 → σ → Prop)
    (E : ε → σ → Prop) (C : Prop) :
    (frontier.next : Action ε σ UInt64).Ends s Q E C ↔
      match frontier.next? with
      | none => C
      | some n => Q n s :=
  frontier.endsIn_next s Q E fun _ => C

theorem Frontier.next?_eq {frontier : Frontier} {n : Nat}
    (h : frontier.lastPersisted = before? n) (hn : n < UInt64.size) :
    frontier.next? = some (UInt64.ofNat n) := by
  have hnext := (ensures_next h hn () (fun x _ => x = UInt64.ofNat n)
    fun (_ : Unit) _ => False).2 rfl
  have hends := (ends_next frontier () _ _ False).1 hnext
  cases hfound : frontier.next? with
  | none =>
      rw [hfound] at hends
      exact hends.elim
  | some x =>
      rw [hfound] at hends
      exact congrArg some hends

namespace Writer

/-! ### The halves of a reset -/

/-- The writer once its open log was given up. -/
def gaveUp (writer : Writer Stream) : Writer Stream :=
  { writer with log := writer.log.map fun log => { log with stream := none } }

/-- The open log is given up, and the medium is asked where durable data ends. -/
def survey : Action JournalError (Writer Stream × Medium Memory) (Frontier × UInt64) := do
  let (writer, _) ← get
  match writer.log with
  | none => pure ()
  | some log => onLog log OpenLog.abandon
  let frontier ← writer.journal.probe.onSecond
  return (frontier, ← frontier.next)

/-- The entries of the queue that are not durable yet, if durable data ends at `expected`. -/
def remaining (writer : Writer Stream) (expected : UInt64) : List Entry :=
  writer.unflushed.dropWhile fun entry => entry.sequence < expected

/-- The damaged log is sealed at the frontier, and the entries behind it are written into a new
log. -/
def rebuild (writer : Writer Stream) (frontier : Frontier) (expected : UInt64) :
    Action JournalError (Writer Stream × Medium Memory) Unit := do
  discard (writer.journal.sealAt frontier).onSecond
  update fun state => { state with log := none, unflushed := writer.remaining expected }
  replay ((writer.remaining expected).head?.elim writer.next Entry.sequence)
    (writer.remaining expected)

variable {writer writer' : Writer Stream} {medium : Medium Memory} {expected : UInt64}

/-- A reset surveys the medium, and rebuilds the end of the journal if that is no
contradiction. -/
theorem reset_eq : (reset : Action JournalError (Writer Stream × Medium Memory) Unit) = (do
    let (writer, _) ← get
    let (frontier, expected) ← survey
    Action.ofExcept (writer.checkFrontier expected)
    rebuild writer frontier expected) := by
  funext state
  obtain ⟨writer, medium⟩ := state
  unfold reset survey
  simp only [bind_assoc, Action.get_bind_apply]
  cases writer.log <;> simp only [bind_assoc, pure_bind] <;> rfl

section

variable {frontier : Frontier} {surveyed : Writer Stream × Medium Memory}

/-- A reset fails as its survey does. -/
theorem reset_of_survey_error {failure : Failure JournalError}
    (h : survey (writer, medium) = .error failure surveyed) :
    reset (writer, medium) = .error failure surveyed := by
  rw [reset_eq, Action.get_bind_apply]
  exact Action.bind_of_error h

/-- A reset is refused where the survey found a contradiction. -/
theorem reset_of_checkFrontier_error {e : JournalError}
    (h : survey (writer, medium) = .ok (frontier, expected) surveyed)
    (hcheck : writer.checkFrontier expected = .error e) :
    reset (writer, medium) = .error (.error e) surveyed := by
  rw [reset_eq, Action.get_bind_apply]
  refine (Action.bind_of_ok h).trans ?_
  dsimp only
  rw [hcheck]
  rfl

/-- A reset rebuilds the end of the journal where the survey found no contradiction. -/
theorem reset_of_checkFrontier_ok (h : survey (writer, medium) = .ok (frontier, expected) surveyed)
    (hcheck : writer.checkFrontier expected = .ok ()) :
    reset (writer, medium) = rebuild writer frontier expected surveyed := by
  rw [reset_eq, Action.get_bind_apply]
  refine (Action.bind_of_ok h).trans ?_
  dsimp only
  rw [hcheck]
  rfl

end

/-! ### The frontier and the queue -/

/-- A frontier is no contradiction if it leaves no gap before the queue and does not reach past
it. -/
theorem checkFrontier_eq_ok_iff : writer.checkFrontier expected = .ok () ↔
    (∀ first ∈ writer.unflushed.head?, first.sequence ≤ expected) ∧ expected ≤ writer.next := by
  unfold checkFrontier
  cases writer.unflushed.head? with
  | none => by_cases hahead : writer.next < expected <;> simp [hahead, UInt64.not_lt.1]
  | some first =>
      by_cases hgap : expected < first.sequence <;> by_cases hahead : writer.next < expected <;>
        simp [hgap, hahead, UInt64.not_lt.1]

/-- The queue is a run of entries up to the next number, and where a reset is needed there is no
stream that can be used. -/
structure Tidy (writer : Writer Stream) : Prop where
  /-- Where a reset is needed no stream can be used. -/
  adrift : writer.needsReset = true → ∀ log ∈ writer.log, log.Adrift
  /-- The queue is a run of entries up to the next number. -/
  queue : ∃ (ledger : Ledger) (f : Nat), f ≤ writer.next.toNat ∧
    writer.unflushed = ledger.entries f writer.next.toNat

namespace Tidy

theorem of_queue_eq (h : writer.Tidy) (hnext : writer'.next = writer.next)
    (hqueue : writer'.unflushed = writer.unflushed)
    (hadrift : writer'.needsReset = true → ∀ log ∈ writer'.log, log.Adrift) : writer'.Tidy := by
  refine ⟨hadrift, ?_⟩
  rw [hnext, hqueue]
  exact h.queue

theorem of_steady (h : writer.Tidy) (hnext : writer'.next = writer.next)
    (hqueue : writer'.unflushed = writer.unflushed) (hsteady : writer'.needsReset = false) :
    writer'.Tidy := by
  refine h.of_queue_eq hnext hqueue fun hreset => ?_
  rw [hsteady] at hreset
  cases hreset

/-- What remains of the queue is a run again, and starts at the frontier unless there was
nothing. -/
theorem remaining (h : writer.Tidy) (hcheck : writer.checkFrontier expected = .ok ()) :
    (∃ (ledger : Ledger) (f : Nat), f ≤ writer.next.toNat ∧
      writer.remaining expected = ledger.entries f writer.next.toNat) ∧
    (writer.remaining expected).head?.elim writer.next Entry.sequence =
      if writer.unflushed = [] then writer.next else expected := by
  obtain ⟨hgap, hahead⟩ := checkFrontier_eq_ok_iff.1 hcheck
  obtain ⟨ledger, f, hf, hqueue⟩ := h.queue
  have hsize : writer.next.toNat < UInt64.size := writer.next.toNat_lt
  rw [UInt64.le_iff_toNat_le] at hahead
  unfold Writer.remaining
  rcases Nat.eq_or_lt_of_le hf with rfl | hlt
  · rw [hqueue, Ledger.entries_self]
    exact ⟨⟨ledger, _, Nat.le_refl _, Ledger.entries_self.symm⟩, by simp⟩
  · have hfirst : f ≤ expected.toNat := by
      rw [hqueue, Ledger.entries_cons hlt] at hgap
      have hle := UInt64.le_iff_toNat_le.1 (hgap _ rfl)
      rwa [ledger.toNat_sequence (by omega)] at hle
    have hdrop : (ledger.entries f writer.next.toNat).dropWhile
        (fun entry => entry.sequence < expected) =
          ledger.entries expected.toNat writer.next.toNat := by
      simpa using Ledger.dropWhile_entries hfirst hahead hsize
    have hne : writer.unflushed ≠ [] := by
      rw [hqueue, Ledger.entries_cons hlt]
      exact List.cons_ne_nil _ _
    rw [if_neg hne, hqueue, hdrop]
    refine ⟨⟨ledger, _, hahead, rfl⟩, ?_⟩
    rcases Nat.eq_or_lt_of_le hahead with heq | hlt'
    · rw [heq, Ledger.entries_self]
      exact (UInt64.toNat_inj.1 heq).symm
    · rw [Ledger.entries_cons hlt']
      exact UInt64.ofNat_toNat

end Tidy

/-! ### Resetting -/

theorem adrift_gaveUp (writer : Writer Stream) : ∀ log ∈ writer.gaveUp.log, log.Adrift := by
  intro log hlog
  obtain ⟨before, -, rfl⟩ := Option.map_eq_some_iff.1 hlog
  exact OpenLog.adrift_of_stream_eq_none rfl

theorem gaveUp_of_log_eq_none (h : writer.log = none) : writer.gaveUp = writer := by
  rw [gaveUp, h, Option.map_none, ← h]

theorem gaveUp_of_log_eq_some {log : OpenLog Stream} (h : writer.log = some log) :
    writer.gaveUp = { writer with log := some { log with stream := none } } := by
  rw [gaveUp, h, Option.map_some]

/-- A survey gives the open log up, and then ends as a probe does, unless the number behind the
frontier is too great. -/
theorem ends_survey_of_probe {Q : Frontier → Medium Memory → Prop}
    {E : JournalError → Medium Memory → Prop} {C : Prop}
    (hadrift : ∀ log ∈ writer.log, log.Adrift)
    (hprobe : ∀ after, Medium.Keeps medium after → Medium.Untouched medium after →
      writer.journal.probe.Ends after Q E C)
    (hcrash : ∀ frontier after, Q frontier after → frontier.next? = none → C) :
    survey.Ends (writer, medium)
      (fun found s => s.1 = writer.gaveUp ∧ Q found.1 s.2 ∧ found.1.next? = some found.2)
      (fun e s => s.1 = writer.gaveUp ∧ E e s.2) C := by
  have hrest (after : Medium Memory) (hkeeps : Medium.Keeps medium after)
      (huntouched : Medium.Untouched medium after) :
      (do
        let frontier ← writer.journal.probe.onSecond
        return (frontier, ← frontier.next) :
          Action JournalError (Writer Stream × Medium Memory) (Frontier × UInt64)).Ends
        (writer.gaveUp, after)
        (fun found s => s.1 = writer.gaveUp ∧ Q found.1 s.2 ∧ found.1.next? = some found.2)
        (fun e s => s.1 = writer.gaveUp ∧ E e s.2) C := by
    rw [Action.ends_bind, Action.ends_onSecond]
    refine (hprobe after hkeeps huntouched).mono ?_ (fun _ _ hfailed => ⟨rfl, hfailed⟩)
    intro frontier last hfound
    rw [Action.ends_bind, Frontier.ends_next]
    cases hnext : frontier.next? with
    | none => exact hcrash frontier last hfound hnext
    | some expected => exact ⟨rfl, hfound, hnext⟩
  rw [survey, Action.ends_bind, Action.ends_get]
  dsimp only
  cases hlog : writer.log with
  | none =>
      have hdone := hrest medium (.refl medium) (.refl medium)
      rw [gaveUp_of_log_eq_none hlog] at hdone ⊢
      exact hdone
  | some log =>
      dsimp only
      rw [Action.ends_bind, ends_onLog]
      refine (OpenLog.ensures_abandon (hadrift log hlog) medium).ends.mono ?_ (fun _ _ h => h.elim)
      rintro _ ⟨_, after⟩ ⟨rfl, hkeeps, huntouched⟩
      have hdone := hrest after hkeeps huntouched
      rw [gaveUp_of_log_eq_some hlog] at hdone ⊢
      exact hdone

/-- A survey leaves the medium untouched, and changes the writer in nothing but the stream of its
open log. -/
theorem ends_survey (hadrift : ∀ log ∈ writer.log, log.Adrift) (medium : Medium Memory) :
    survey.Ends (writer, medium)
      (fun found s => s.1 = writer.gaveUp ∧ Medium.Untouched medium s.2 ∧
        found.1.next? = some found.2)
      (fun _ s => s.1 = writer.gaveUp ∧ Medium.Untouched medium s.2) True :=
  ends_survey_of_probe hadrift
    (fun after _ huntouched =>
      ((Journal.observes_probe writer.journal).ends after).mono
        (fun _ _ h => huntouched.trans h) (fun _ _ h => huntouched.trans h))
    fun _ _ _ _ => trivial

/-- On an honest medium a survey finds what the files say, unless a call fails. -/
theorem ends_survey_frontierOf (hadrift : ∀ log ∈ writer.log, log.Adrift)
    (hhonest : medium.Honest) :
    survey.Ends (writer, medium)
      (fun found s => s.1 = writer.gaveUp ∧
        (writer.journal.frontierOf medium.storage.files = .ok found.1 ∧ Medium.Keeps medium s.2) ∧
        found.1.next? = some found.2)
      (fun e s => s.1 = writer.gaveUp ∧
        (writer.journal.frontierOf medium.storage.files = .error e ∧ Medium.Keeps medium s.2 ∨
          e.isFatal = false ∧ Medium.Foiled medium s.2))
      (∃ frontier, writer.journal.frontierOf medium.storage.files = .ok frontier ∧
        frontier.next? = none) := by
  refine ends_survey_of_probe
    (Q := fun frontier s => writer.journal.frontierOf medium.storage.files = .ok frontier ∧
      Medium.Keeps medium s)
    (E := fun e s => writer.journal.frontierOf medium.storage.files = .error e ∧
      Medium.Keeps medium s ∨ e.isFatal = false ∧ Medium.Foiled medium s) hadrift ?_ ?_
  · intro given hkeeps _
    have hprobe := writer.journal.ensures_probe (hkeeps.toQuieter.honest hhonest)
    rw [hkeeps.files_eq] at hprobe
    refine hprobe.ends.mono ?_ ?_
    · rintro frontier last ⟨hfrontier, hkeeps'⟩
      exact ⟨hfrontier, hkeeps.trans hkeeps'⟩
    · rintro e last (⟨herror, hkeeps'⟩ | ⟨hmild, hfoiled⟩)
      · exact .inl ⟨herror, hkeeps.trans hkeeps'⟩
      · exact .inr ⟨hmild, hkeeps.foiled hfoiled⟩
  · rintro frontier last ⟨hfrontier, -⟩ hnone
    exact ⟨frontier, hfrontier, hnone⟩

/-- A new log is opened, or there is none. -/
theorem ensures_openLog_of_any {σ η : Type} [Storage σ η] (start : UInt64) (writer : Writer η)
    (medium : Medium σ) :
    (openLog start).Ensures (writer, medium)
      (fun log s => s.1 = { writer with log := some log } ∧ log.segment.start = start ∧
        log.stream.isSome = true ∧ log.written = 0)
      (fun e s => s.1 = { writer with log := none } ∧ e.OfMedium) := by
  rw [openLog, Action.ensures_bind, Action.ensures_get]
  dsimp only
  rw [Action.ensures_bind, ensures_update, Action.ensures_bind, Action.ensures_onSecond]
  refine (OpenLog.ensures_create_of_any _ _ medium).mono ?_ (fun _ _ h => ⟨rfl, h⟩)
  intro log after hlog
  rw [Action.ensures_bind, ensures_update]
  exact ⟨rfl, hlog⟩

/-- A new log is opened, with a stream that nothing was written to, or there is none. -/
theorem ensures_openLog (start : UInt64) (writer : Writer Stream) (medium : Medium Memory) :
    let segment := writer.journal.log start unknownStop
    (openLog start).Ensures (writer, medium)
      (fun log s => log = { segment, stream := some { path := segment.location } } ∧
        s.1 = { writer with log := some log } ∧ Quieter medium s.2 ∧
        s.2.storage.files = Medium.created medium.storage.publishing segment.location
          medium.storage.files)
      (fun _ s => s.1 = { writer with log := none } ∧ Foiled medium s.2) := by
  intro segment
  rw [openLog, Action.ensures_bind, Action.ensures_get]
  dsimp only
  rw [Action.ensures_bind, ensures_update, Action.ensures_bind, Action.ensures_onSecond,
    OpenLog.create, Action.ensures_bind, Action.ensures_mapError]
  refine (Medium.ensures_create _ medium).mono ?_ (fun _ _ h => ⟨rfl, h⟩)
  rintro _ after ⟨rfl, hquieter, hfiles⟩
  exact ⟨rfl, rfl, hquieter, hfiles⟩

/-- The end of the journal is rebuilt, or what is left needs a reset still. -/
theorem ends_rebuild (frontier : Frontier) (hadrift : ∀ log ∈ writer'.log, log.Adrift)
    (medium : Medium Memory) :
    (rebuild writer frontier expected).Ends (writer', medium)
      (fun _ s => s.1.needsReset = false ∧ s.1.next = writer'.next ∧
        s.1.unflushed = writer.remaining expected ∧
        ∃ log ∈ s.1.log, log.segment.start =
          (writer.remaining expected).head?.elim writer.next Entry.sequence)
      (fun e s => e.isFatal = false ∧ (∀ log ∈ s.1.log, log.Adrift) ∧ s.1.next = writer'.next ∧
        (s.1.unflushed = writer'.unflushed ∨ s.1.unflushed = writer.remaining expected)) True := by
  rw [rebuild, Action.ends_bind, Action.ends_discard, Action.ends_onSecond]
  refine (writer.journal.ends_sealAt frontier medium).mono ?_
    (fun _ _ hmedium => ⟨hmedium.isFatal_eq, hadrift, rfl, .inl rfl⟩)
  intro _ done _
  rw [Action.ends_bind, ends_update, replay, Action.ends_bind]
  refine (ensures_openLog_of_any _ _ _).ends.mono ?_ ?_
  · rintro log ⟨_, after⟩ ⟨rfl, hstart, -⟩
    rw [Action.ends_bind, ends_onLog]
    refine (OpenLog.ensures_writeAll_of_any _ log after).ends.mono ?_ ?_
    · rintro _ ⟨log', last⟩ hsegment
      rw [ends_update]
      exact ⟨rfl, rfl, rfl, log', rfl, hsegment ▸ hstart⟩
    · rintro e ⟨log', last⟩ ⟨hbroken, hmild⟩
      refine ⟨hmild, ?_, rfl, .inr rfl⟩
      rintro _ ⟨⟩
      exact hbroken
  · rintro e ⟨_, after⟩ ⟨rfl, hmedium⟩
    exact ⟨hmedium.isFatal_eq, fun _ hnone => (by cases hnone), rfl, .inr rfl⟩

/-- A reset leaves a tidy writer, which needs no reset if it succeeds. -/
theorem Tidy.ends_reset (h : writer.Tidy) (hneeds : writer.needsReset = true)
    (medium : Medium Memory) :
    reset.Ends (writer, medium)
      (fun _ s => s.1.Tidy ∧ s.1.needsReset = false ∧ s.1.next = writer.next)
      (fun _ s => s.1.Tidy) True := by
  have hgaveUp : writer.gaveUp.Tidy := h.of_queue_eq rfl rfl fun _ => adrift_gaveUp writer
  rw [reset_eq, Action.ends_bind, Action.ends_get]
  dsimp only
  rw [Action.ends_bind]
  refine (ends_survey (h.adrift hneeds) medium).mono ?_ ?_
  · rintro ⟨frontier, expected⟩ ⟨_, after⟩ ⟨rfl, -, -⟩
    rw [Action.ends_bind, Action.ends_ofExcept]
    refine ⟨fun _ hcheck => ?_, fun _ _ => hgaveUp⟩
    obtain ⟨hqueue, -⟩ := h.remaining hcheck
    refine (ends_rebuild frontier (adrift_gaveUp writer) after).mono ?_ ?_
    · rintro _ s ⟨hsteady, hnext, hunflushed, -⟩
      refine ⟨⟨fun hreset => (by rw [hsteady] at hreset; cases hreset), ?_⟩, hsteady, hnext⟩
      rw [hnext, hunflushed]
      exact hqueue
    · rintro e s ⟨-, hadrift, hnext, hunflushed | hunflushed⟩
      · exact hgaveUp.of_queue_eq hnext hunflushed fun _ => hadrift
      · refine ⟨fun _ => hadrift, ?_⟩
        rw [hnext, hunflushed]
        exact hqueue
  · rintro e ⟨_, after⟩ ⟨rfl, -⟩
    exact hgaveUp

theorem Tidy.ends_settle (h : writer.Tidy) (medium : Medium Memory) :
    settle.Ends (writer, medium)
      (fun _ s => s.1.Tidy ∧ s.1.needsReset = false ∧ s.1.next = writer.next)
      (fun _ s => s.1.Tidy) True := by
  rw [settle, Action.ends_bind, Action.ends_get]
  dsimp only
  rw [Action.ends_ite]
  exact ⟨fun hneeds => h.ends_reset hneeds medium,
    fun hsteady => ⟨h, Bool.not_eq_true _ ▸ hsteady, rfl⟩⟩

end Writer

end SegmentedJournal
