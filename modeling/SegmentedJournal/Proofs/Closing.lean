import SegmentedJournal.Proofs.Reached
/-!
# Closing a writer

Whatever fails on the way, a close that returns leaves nothing behind: the log and the collector are
let go, and the writer is closed (`Writer.Closed`).  What failed is answered: nothing, the one
failure, or all of them in order (`Writer.verdict`).  At most two things fail, the collector last;
for a log is committed only if no reset was needed or the reset succeeded, and it is given up
otherwise, which nothing is created, removed or renamed for (`Writer.Attempts`).

A closed writer can be closed again, takes no more entries and flushes none, and whatever it is
asked, no call reaches the medium (`Writer.close_of_closed`, `Writer.write_of_closed`,
`Writer.flush_of_closed`).

All this holds on any storage, of any writer that has not crashed.  One that has refuses to be
closed, too, and keeps what it holds until it is let go (`Writer.close_ends`).
-/

namespace SegmentedJournal

namespace OpenLog

variable {σ η : Type} [Storage σ η]

/-- Closing a stream is not counted. -/
theorem ensures_closeStream_counters (stream : η) (medium : Medium σ) :
    (closeStream stream).Ensures medium (fun _ after => after.counters = medium.counters)
      (fun _ after => after.counters = medium.counters) := by
  have hclose : (Medium.close : Action IoError (η × Medium σ) Unit).Ensures (stream, medium)
      (fun _ s => s.2.counters = medium.counters) (fun _ s => s.2.counters = medium.counters) := by
    rw [Medium.close, Action.ensures_bind, Action.ensures_onSecond,
      Medium.ensures_consult_of_any]
    dsimp only
    rw [Action.ensures_ite]
    refine ⟨fun _ => rfl, fun _ => ?_⟩
    rw [Medium.onStream, Action.ensures_zoom, Action.ensures_ofEStateM]
    split <;> rfl
  unfold Action.Ensures closeStream
  rcases hclose.ok_or_error with ⟨_, _, heq, hcounters⟩ | ⟨_, _, heq, hcounters⟩
  · rw [heq]
    exact hcounters
  · rw [heq]
    exact hcounters

/-- Giving a log up is not counted. -/
theorem ensures_abandon_counters (log : OpenLog η) (medium : Medium σ) :
    abandon.Ensures (log, medium) (fun _ s => s.2.counters = medium.counters)
      (fun _ _ => False) := by
  rw [abandon, Action.ensures_bind, ensures_takeStream]
  cases log.stream with
  | none => rfl
  | some stream =>
    dsimp only
    rw [Action.ensures_bind, Action.ensures_attempt, Action.ensures_onSecond]
    exact (ensures_closeStream_counters stream medium).mono (fun _ _ h => h) (fun _ _ h => h)

end OpenLog

namespace Writer

variable {σ η : Type} [Storage σ η] {before writer : Writer η} {medium : Medium σ}

/-! ### What a reset leaves alone -/

/-- Nothing has changed but what a reset may change. -/
def Resumed (before after : Writer η) : Prop :=
  ∃ log unflushed rotateNext needsReset,
    after = { before with log, unflushed, rotateNext, needsReset }

theorem Resumed.refl (writer : Writer η) : Resumed writer writer := ⟨_, _, _, _, rfl⟩

theorem Resumed.update {given : Writer η} (h : Resumed writer given) (log : Option (OpenLog η))
    (unflushed : List Entry) (rotateNext needsReset : Bool) :
    Resumed writer { given with log, unflushed, rotateNext, needsReset } := by
  obtain ⟨_, _, _, _, rfl⟩ := h
  exact ⟨_, _, _, _, rfl⟩

theorem Resumed.ends_replay {given : Writer η} (h : Resumed writer given) (start : UInt64)
    (entries : List Entry) (medium : Medium σ) :
    (replay start entries).Ends (given, medium) (fun _ s => Resumed writer s.1)
      (fun _ s => Resumed writer s.1) True := by
  rw [replay, Action.ends_bind]
  refine (ensures_openLog_of_any start given medium).ends.mono ?_ ?_
  · rintro log ⟨_, opened⟩ ⟨rfl, -⟩
    rw [Action.ends_bind, ends_onLog]
    refine (Action.ends_run _ _).mono (fun _ s _ => ?_) (fun _ s _ => h.update _ _ _ _)
    rw [ends_update]
    exact h.update _ _ _ _
  · rintro e ⟨_, opened⟩ ⟨rfl, -⟩
    exact h.update _ _ _ _

theorem Resumed.ends_reconcile {given : Writer η} (h : Resumed writer given) (medium : Medium σ) :
    writer.reconcile.Ends (given, medium) (fun _ s => Resumed writer s.1)
      (fun _ s => Resumed writer s.1) True := by
  rw [reconcile, Action.ends_bind, Action.ends_onSecond]
  refine (Action.ends_run _ _).mono (fun frontier probed _ => ?_) (fun _ _ _ => h)
  rw [Action.ends_bind, Frontier.ends_next]
  cases frontier.next? with
  | none => trivial
  | some expected =>
    dsimp only
    rw [Action.ends_bind, Action.ends_ofExcept]
    refine ⟨fun _ _ => ?_, fun _ _ => h⟩
    rw [Action.ends_bind, Action.ends_discard, Action.ends_onSecond]
    refine (Action.ends_run _ _).mono (fun _ done _ => ?_) (fun _ _ _ => h)
    rw [Action.ends_bind, ends_update]
    exact (h.update _ _ _ _).ends_replay _ _ done

/-- A reset changes neither the writer's place nor the collector beside it. -/
theorem ends_reset_resumed (writer : Writer η) (medium : Medium σ) :
    reset.Ends (writer, medium) (fun _ s => Resumed writer s.1) (fun _ s => Resumed writer s.1)
      True := by
  rw [reset, Action.ends_bind, Action.ends_get]
  dsimp only
  cases writer.log with
  | none => exact (Resumed.refl writer).ends_reconcile medium
  | some log =>
    dsimp only
    rw [Action.ends_bind, ends_onLog]
    exact (Action.ends_run _ _).mono
      (fun _ s _ => ((Resumed.refl writer).update (some s.1) _ _ _).ends_reconcile s.2)
      (fun _ s _ => (Resumed.refl writer).update (some s.1) _ _ _)

theorem ends_settle_resumed (writer : Writer η) (medium : Medium σ) :
    settle.Ends (writer, medium) (fun _ s => Resumed writer s.1) (fun _ s => Resumed writer s.1)
      True := by
  rw [settle, Action.ends_bind, Action.ends_get]
  dsimp only
  rw [Action.ends_ite]
  exact ⟨fun _ => ends_reset_resumed writer medium, fun _ => .refl writer⟩

/-! ### What closing meets -/

/-- The error of stopping the collector, if it crashed. -/
def stopErrors (writer : Writer η) : List JournalError :=
  if writer.collector.any Collector.crashed then [.collectorCrashed] else []

/-- What closing answers, of the failures that it met. -/
def verdict : List JournalError → Except JournalError Unit
  | [] => .ok ()
  | [error] => .error error
  | errors => .error (.shutdown errors)

/-- What fails before the collector is stopped, and the medium then. -/
inductive Attempts (writer : Writer η) (medium : Medium σ) : List JournalError → Medium σ → Prop
  /-- Nothing, and there is no log to complete. -/
  | idle {settled : Writer η × Medium σ} (hsettle : settle (writer, medium) = .ok () settled)
      (hlog : settled.1.log = none) : Attempts writer medium [] settled.2
  /-- Nothing, and the log is completed. -/
  | committed {settled : Writer η × Medium σ} {log : OpenLog η} {answer : Option Segment}
      {last : OpenLog η × Medium σ} (hsettle : settle (writer, medium) = .ok () settled)
      (hlog : settled.1.log = some log)
      (hcommit : OpenLog.commit writer.journal writer.next (log, settled.2) = .ok answer last) :
      Attempts writer medium [] last.2
  /-- The log cannot be completed. -/
  | uncommitted {settled : Writer η × Medium σ} {log : OpenLog η} {e : JournalError}
      {last : OpenLog η × Medium σ} (hsettle : settle (writer, medium) = .ok () settled)
      (hlog : settled.1.log = some log)
      (hcommit : OpenLog.commit writer.journal writer.next (log, settled.2) =
        .error (.error e) last) :
      Attempts writer medium [e] last.2
  /-- The reset fails, after which no more calls are counted. -/
  | unsettled {settled : Writer η × Medium σ} {e : JournalError} {after : Medium σ}
      (hsettle : settle (writer, medium) = .error (.error e) settled)
      (hcounters : after.counters = settled.2.counters) : Attempts writer medium [e] after

/-- The writer was closed, after which it holds nothing. -/
structure Closed (before after : Writer η) : Prop where
  /-- It is closed. -/
  closed_eq : after.closed = true
  /-- It has no log. -/
  log_eq : after.log = none
  /-- It has no collector. -/
  collector_eq : after.collector = none
  /-- The next number is as before. -/
  next_eq : after.next = before.next
  /-- It has not crashed. -/
  poisoned_eq : after.poisoned = false

/-! ### Closed writers -/

section

variable (hsound : writer.poisoned = false) (hclosed : writer.closed = true) (medium : Medium σ)

include hsound hclosed

/-- Closing a writer again does nothing. -/
theorem close_of_closed : close (writer, medium) = .ok () (writer, medium) := by
  have hfinish : finish (writer, medium) = .ok () (writer, medium) := by
    rw [finish, Action.get_bind_apply]
    dsimp only
    rw [if_pos hclosed]
    rfl
  rw [close, operation, hsound, if_neg Bool.false_ne_true, hfinish]

theorem write_of_closed (entry : Entry) :
    write entry (writer, medium) = .error (.error .writeAfterClose) (writer, medium) := by
  have happend : append entry (writer, medium) =
      .error (.error .writeAfterClose) (writer, medium) := by
    rw [append, Action.get_bind_apply]
    dsimp only
    rw [if_pos hclosed]
    rfl
  rw [write, operation, hsound, if_neg Bool.false_ne_true, happend]

theorem flush_of_closed :
    flush (writer, medium) = .error (.error .flushAfterClose) (writer, medium) := by
  have hpush : push (writer, medium) = .error (.error .flushAfterClose) (writer, medium) := by
    rw [push, Action.get_bind_apply]
    dsimp only
    rw [if_pos hclosed]
    rfl
  rw [flush, operation, hsound, if_neg Bool.false_ne_true, hpush]

end

/-! ### Closing -/

/-- What a close that returns has come to: it answers what failed, and holds nothing any more. -/
structure Released (writer : Writer η) (medium : Medium σ) (answer : Except JournalError Unit)
    (last : Writer η × Medium σ) : Prop where
  /-- The answer is made of what failed, the collector last. -/
  answer_eq : ∃ failures, Attempts writer medium failures last.2 ∧
    answer = verdict (failures ++ writer.stopErrors)
  /-- The writer is closed. -/
  closed : Closed writer last.1

omit [Storage σ η] in
/-- What closing does last is to let go of everything, and to answer what failed. -/
theorem endsIn_finishAfter {P : Except JournalError Unit → Writer η × Medium σ → Prop}
    {errors : List JournalError}
    (h : P (verdict (errors ++ before.stopErrors)) (writer.shut, medium))
    (K : Writer η × Medium σ → Prop) :
    (before.finishAfter errors).EndsIn (writer, medium) (fun _ s => P (.ok ()) s)
      (fun e s => P (.error e) s) K := by
  have heq : before.finishAfter errors = (do
      update shut
      match errors ++ before.stopErrors with
      | [] => return ()
      | [error] => Action.fail error
      | errors => Action.fail (.shutdown errors) :
        Action JournalError (Writer η × Medium σ) Unit) := by
    unfold finishAfter stopErrors
    cases before.collector with
    | none => rfl
    | some collector => rcases collector with ⟨journal, _ | _⟩ <;> rfl
  rw [heq, Action.endsIn_bind, endsIn_update]
  generalize errors ++ before.stopErrors = failures at h
  rcases failures with _ | ⟨e, _ | ⟨e', failures⟩⟩ <;> exact h

/-- Past a reset that was not needed or succeeded, the log is completed if it can be. -/
theorem endsIn_finishSettled_of_ok {settled : Writer η × Medium σ}
    (hsound : writer.poisoned = false)
    (hsettle : settle (writer, medium) = .ok () settled) :
    (finishSettled []).EndsIn settled (fun _ s => Released writer medium (.ok ()) s)
      (fun e s => Released writer medium (.error e) s) fun _ => True := by
  obtain ⟨given, seen⟩ := settled
  obtain ⟨log, unflushed, rotateNext, needsReset, rfl⟩ :=
    (ends_settle_resumed writer medium).of_ok hsettle
  rw [finishSettled, Action.endsIn_bind, Action.endsIn_get]
  cases log with
  | none =>
    have hidle : Attempts writer medium [] seen := .idle hsettle rfl
    exact endsIn_finishAfter ⟨⟨[], hidle, rfl⟩, rfl, rfl, rfl, rfl, hsound⟩ _
  | some log =>
    dsimp only
    rw [if_pos List.isEmpty_nil, Action.endsIn_bind, endsIn_errorsOf, endsIn_onLog]
    refine (Action.ends_run _ _).endsIn.mono (fun answer last hcommit => ?_)
      (fun e last hcommit => ?_) (fun _ _ => trivial)
    · exact endsIn_finishAfter
        ⟨⟨[], .committed hsettle rfl hcommit, rfl⟩, rfl, rfl, rfl, rfl, hsound⟩ _
    · exact endsIn_finishAfter
        ⟨⟨[e], .uncommitted hsettle rfl hcommit, rfl⟩, rfl, rfl, rfl, rfl, hsound⟩ _

/-- Past a reset that failed, the log is given up. -/
theorem endsIn_finishSettled_of_error {failed : Writer η × Medium σ} {e : JournalError}
    (hsound : writer.poisoned = false)
    (hsettle : settle (writer, medium) = .error (.error e) failed) :
    (finishSettled [e]).EndsIn failed (fun _ s => Released writer medium (.ok ()) s)
      (fun e s => Released writer medium (.error e) s) fun _ => True := by
  obtain ⟨given, seen⟩ := failed
  obtain ⟨log, unflushed, rotateNext, needsReset, rfl⟩ :=
    (ends_settle_resumed writer medium).of_error hsettle
  have hunsettled (after : Medium σ) (h : after.counters = seen.counters) :
      Attempts writer medium [e] after := .unsettled hsettle h
  rw [finishSettled, Action.endsIn_bind, Action.endsIn_get]
  cases log with
  | none => exact endsIn_finishAfter ⟨⟨[e], hunsettled seen rfl, rfl⟩, rfl, rfl, rfl, rfl, hsound⟩ _
  | some log =>
    have habandon : OpenLog.abandon.EndsIn (log, seen) (fun _ s => s.2.counters = seen.counters)
        (fun _ _ => False) fun _ => True := (OpenLog.ensures_abandon_counters log seen).endsIn
    dsimp only
    rw [List.isEmpty_cons, if_neg Bool.false_ne_true, Action.endsIn_bind, endsIn_onLog]
    refine habandon.mono (fun _ last hcounters => ?_) (fun _ _ h => h.elim) fun _ _ => trivial
    exact endsIn_finishAfter ⟨⟨[e], hunsettled last.2 hcounters, rfl⟩, rfl, rfl, rfl, rfl, hsound⟩ _

/-- **Closing is final**: unless a crash has gone before, a close that returns has let go of the log
and of the collector and leaves the next number alone, whatever failed on the way.  Its answer is
what failed, of the reset if one was needed, the completion of the log and the end of the collector;
after a reset that failed nothing is created, removed or renamed.  From then on the writer can be
closed again, takes no more entries and flushes none, and never reaches the medium.  After a crash,
which a close can meet itself, a writer refuses and stays as it is. -/
theorem close_ends (writer : Writer η) (medium : Medium σ) :
    (writer.poisoned = true →
      close (writer, medium) = .error (.error .poisoned) (writer, medium)) ∧
    (writer.poisoned = false → writer.closed = true →
      close (writer, medium) = .ok () (writer, medium)) ∧
    (writer.poisoned = false → writer.closed = false →
      close.EndsIn (writer, medium) (fun _ last => Released writer medium (.ok ()) last)
        (fun e last => Released writer medium (.error e) last)
        (fun crashed => crashed.1.poisoned = true)) ∧
    ∀ answer last, Released writer medium answer last → ∀ given : Medium σ,
      close (last.1, given) = .ok () (last.1, given) ∧
      (∀ entry, write entry (last.1, given) = .error (.error .writeAfterClose) (last.1, given)) ∧
      flush (last.1, given) = .error (.error .flushAfterClose) (last.1, given) := by
  refine ⟨fun hcrashed => ?_, fun hsound hclosed => ?_, fun hsound hopen => ?_,
    fun answer last hlast given => ?_⟩
  · rw [close, operation, if_pos hcrashed]
  · exact close_of_closed hsound hclosed medium
  · rw [close, endsIn_operation]
    refine ⟨fun hcrashed => (by rw [hsound] at hcrashed; cases hcrashed), fun _ => ?_⟩
    rw [finish_eq, Action.endsIn_bind, Action.endsIn_get]
    dsimp only
    rw [hopen, if_neg Bool.false_ne_true, Action.endsIn_bind, endsIn_errorsOf]
    refine (Action.ends_run _ _).endsIn.mono (fun _ settled hsettle => ?_)
      (fun e failed hsettle => ?_) (fun _ _ => rfl)
    · exact (endsIn_finishSettled_of_ok hsound hsettle).mono (fun _ _ h => h) (fun _ _ h => h)
        fun _ _ => rfl
    · exact (endsIn_finishSettled_of_error hsound hsettle).mono (fun _ _ h => h) (fun _ _ h => h)
        fun _ _ => rfl
  · have hsound := hlast.closed.poisoned_eq
    have hclosed := hlast.closed.closed_eq
    exact ⟨close_of_closed hsound hclosed given, write_of_closed hsound hclosed given,
      flush_of_closed hsound hclosed given⟩

/-- For example, a flush has failed, and then the medium cannot be listed: closing answers the
failure of the reset, and the writer is closed. -/
theorem close_ends_unlisted :
    let journal := Journal.rooted "journal" { gcEnabled := false }
    let medium : Medium Memory := { storage := { publishing := .onFlush } }
    let moves : List Move :=
      [.write ⟨0, [97]⟩, .arm (.flush .lost), .flush, .armCall { call := .list, after := 0 }]
    ∃ course, Course.started? journal 0 medium = some course ∧
      let state := ((course.run moves).writer, (course.run moves).medium)
      ∃ e last, close state = .error (.error e) last ∧ Released state.1 state.2 (.error e) last ∧
        ∀ given : Medium Memory, close (last.1, given) = .ok () (last.1, given) ∧
          write ⟨0, [98]⟩ (last.1, given) = .error (.error .writeAfterClose) (last.1, given) := by
  intro journal medium moves
  have hrun : (Course.started? journal 0 medium).map (fun course =>
      let state := ((course.run moves).writer, (course.run moves).medium)
      (state.1.poisoned, state.1.closed, (close.error? state).map JournalError.isFatal)) =
      some (false, false, some false) := by
    decide +kernel
  obtain ⟨course, hcourse, hchecked⟩ := Option.map_eq_some_iff.1 hrun
  simp only [Prod.mk.injEq, Option.map_eq_some_iff] at hchecked
  obtain ⟨hsound, hopen, e, hclose, -⟩ := hchecked
  obtain ⟨-, -, hends, hlater⟩ := close_ends (course.run moves).writer (course.run moves).medium
  have hreleased := (hends hsound hopen).of_error (Action.eq_error_leaves hclose)
  exact ⟨course, hcourse, e, _, Action.eq_error_leaves hclose, hreleased, fun given =>
    ⟨(hlater _ _ hreleased given).1, (hlater _ _ hreleased given).2.1 _⟩⟩

/-- A writer that has crashed keeps its log: here the number behind its only entry is too great, and
closing it is refused. -/
theorem close_keeps_after_crash :
    let journal := Journal.rooted "journal" { gcEnabled := false }
    let medium : Medium Memory := { storage := { publishing := .onFlush } }
    let moves : List Move := [.write ⟨0, [97]⟩]
    ∃ course, Course.started? journal 0xffffffffffffffff medium = some course ∧
      let state := ((course.run moves).writer, (course.run moves).medium)
      state.1.Reached ∧ close state = .error (.error .poisoned) state ∧
        state.1.closed = false ∧ state.1.log.isSome = true := by
  intro journal medium moves
  have hrun : (Course.started? journal 0xffffffffffffffff medium).map (fun course =>
      let writer := (course.run moves).writer
      (writer.poisoned, writer.closed, writer.log.isSome)) = some (true, false, true) := by
    decide +kernel
  obtain ⟨course, hcourse, hchecked⟩ := Option.map_eq_some_iff.1 hrun
  simp only [Prod.mk.injEq] at hchecked
  obtain ⟨hcrashed, hopen, hlog⟩ := hchecked
  refine ⟨course, hcourse, (Reached.started (Course.start_of_started? hcourse)).run moves, ?_,
    hopen, hlog⟩
  rw [close, operation, if_pos hcrashed]

end Writer

end SegmentedJournal
