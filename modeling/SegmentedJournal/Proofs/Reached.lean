import SegmentedJournal.Proofs.Courses
import SegmentedJournal.Proofs.Rebuilding
/-!
# Writers that can be reached

A writer that was started, and whose operations were run since on any media
(`Writer.Reached`): others may have changed the files in between, and calls may have failed,
answered wrongly or crashed.  Each operation keeps a writer tidy unless it crashes, after which the
writer refuses everything; so every writer that can be reached is tidy, or it crashed
(`Writer.Reached.tidy`).
-/

namespace SegmentedJournal

open Memory (Stream)

namespace Writer

variable {writer writer' : Writer Stream} {medium : Medium Memory}

/-! ### Operations -/

/-- A new log for the next entry leaves a tidy writer. -/
theorem Tidy.ends_rotate (h : writer.Tidy) (hsteady : writer.needsReset = false)
    (medium : Medium Memory) :
    rotate.Ends (writer, medium)
      (fun _ s => s.1.Tidy ∧ s.1.needsReset = false ∧ s.1.next = writer.next)
      (fun _ s => s.1.Tidy) True := by
  have hopen (given : Writer Stream) (after : Medium Memory) (hgiven : given.needsReset = false)
      (hnext : given.next = writer.next) (hqueue : given.unflushed = writer.unflushed) :
      (do
        let log ← openLog writer.next
        update fun writer => { writer with rotateNext := false }
        return log : Action JournalError (Writer Stream × Medium Memory) (OpenLog Stream)).Ends
        (given, after) (fun _ s => s.1.Tidy ∧ s.1.needsReset = false ∧ s.1.next = writer.next)
        (fun _ s => s.1.Tidy) True := by
    rw [Action.ends_bind]
    refine (ensures_openLog_of_any writer.next given after).ends.mono ?_ ?_
    · rintro log ⟨_, last⟩ ⟨rfl, -⟩
      rw [Action.ends_bind, ends_update]
      exact ⟨h.of_steady hnext hqueue hgiven, hgiven, hnext⟩
    · rintro e ⟨_, last⟩ ⟨rfl, -⟩
      exact h.of_steady hnext hqueue hgiven
  rw [rotate, Action.ends_bind, Action.ends_get]
  dsimp only
  cases writer.log with
  | none => exact hopen writer medium hsteady rfl rfl
  | some log =>
      dsimp only
      rw [Action.ends_bind, Action.ends_discard, ends_resetAfter, ends_onLog]
      refine (OpenLog.ends_commit writer.journal writer.next log medium).mono ?_ ?_
      · rintro _ ⟨log', after⟩ -
        exact hopen { writer with log := some log' } after hsteady rfl rfl
      · rintro e ⟨log', after⟩ hstream
        refine h.of_queue_eq ?_ ?_ ?_
        · dsimp only
          split <;> rfl
        · dsimp only
          split <;> rfl
        · intro _ other hother
          have hsame : some log' = some other := by
            dsimp only at hother
            split at hother <;> exact hother
          cases hsame
          exact OpenLog.adrift_of_stream_eq_none hstream

theorem Tidy.ends_logForNext (h : writer.Tidy) (hsteady : writer.needsReset = false)
    (medium : Medium Memory) :
    logForNext.Ends (writer, medium)
      (fun _ s => s.1.Tidy ∧ s.1.needsReset = false ∧ s.1.next = writer.next)
      (fun _ s => s.1.Tidy) True := by
  rw [logForNext, Action.ends_bind, Action.ends_get]
  dsimp only
  cases writer.log with
  | none => exact h.ends_rotate hsteady medium
  | some log =>
      dsimp only
      rw [Action.ends_ite]
      exact ⟨fun _ => h.ends_rotate hsteady medium, fun _ => ⟨h, hsteady, rfl⟩⟩

/-- A queue that gets the entry with the next number goes on to the number behind it. -/
theorem Tidy.snoc {entry : Entry} {next : UInt64} (h : writer.Tidy)
    (hsteady : writer.needsReset = false) (hentry : entry.sequence = writer.next)
    (hnext : next.toNat = writer.next.toNat + 1) :
    ({ writer with unflushed := writer.unflushed ++ [entry], next } : Writer Stream).Tidy := by
  obtain ⟨ledger, f, hf, hqueue⟩ := h.queue
  refine ⟨fun hreset => ?_, ?_⟩
  · rw [show writer.needsReset = true from hreset] at hsteady
    cases hsteady
  -- The ledger is the same before the entry, and has its payload there.
  let ledger' : Ledger := fun i => if i < writer.next.toNat then ledger i else entry.payload
  have hbefore : ledger.entries f writer.next.toNat = ledger'.entries f writer.next.toNat :=
    Ledger.entries_congr fun i _ hi => (if_pos hi).symm
  have hat : ledger'.entry writer.next.toNat = entry := by
    have hpayload : ledger' writer.next.toNat = entry.payload := if_neg (Nat.lt_irrefl _)
    rw [Ledger.entry, hpayload, UInt64.ofNat_toNat, ← hentry]
  refine ⟨ledger', f, ?_, ?_⟩
  · dsimp only
    omega
  · dsimp only
    rw [hnext, Ledger.entries_succ hf, hqueue, hbefore, hat]

/-- An entry that was appended stands at the end of the queue. -/
theorem Tidy.ends_append (h : writer.Tidy) (entry : Entry) (medium : Medium Memory) :
    (append entry).Ends (writer, medium) (fun _ s => s.1.Tidy) (fun _ s => s.1.Tidy) True := by
  rw [append, Action.ends_bind, Action.ends_get]
  dsimp only
  rw [Action.ends_ite]
  refine ⟨fun _ => h, fun _ => ?_⟩
  rw [Action.ends_bind]
  refine (h.ends_settle medium).mono ?_ (fun _ _ h => h)
  rintro _ ⟨settled, middle⟩ ⟨hsettled, hsteady, -⟩
  rw [Action.ends_bind, Action.ends_get]
  dsimp only
  rw [Action.ends_bind]
  refine (hsettled.ends_logForNext hsteady middle).mono ?_ (fun _ _ h => h)
  rintro log ⟨ready, opened⟩ ⟨hready, hsteady', hnext⟩
  rw [Action.ends_bind, ends_resetAfter, ends_onLog]
  refine (OpenLog.ensures_write_of_any _ log opened).ends.mono ?_ ?_
  · rintro _ ⟨log', after⟩ -
    rw [Action.ends_bind, ends_update, Action.ends_bind, Action.ends_successor]
    split
    · trivial
    · next hwrap =>
      rw [Action.ends_bind, ends_update]
      have happended : ({ ready with log := some log' } : Writer Stream).Tidy :=
        hready.of_steady rfl rfl hsteady'
      refine happended.snoc hsteady' hnext.symm ?_
      rw [show ({ ready with log := some log' } : Writer Stream).next = settled.next from hnext]
      exact Action.toNat_add_one hwrap
  · rintro e ⟨log', after⟩ ⟨hbroken, -⟩
    refine hready.of_queue_eq rfl rfl fun _ => ?_
    rintro _ ⟨⟩
    exact hbroken

/-- A flush empties the queue, or leaves a stream that cannot be used. -/
theorem Tidy.ends_push (h : writer.Tidy) (medium : Medium Memory) :
    push.Ends (writer, medium) (fun _ s => s.1.Tidy) (fun _ s => s.1.Tidy) True := by
  rw [push, Action.ends_bind, Action.ends_get]
  dsimp only
  rw [Action.ends_ite]
  refine ⟨fun _ => h, fun _ => ?_⟩
  rw [Action.ends_bind]
  refine (h.ends_settle medium).mono ?_ (fun _ _ h => h)
  rintro _ ⟨settled, middle⟩ ⟨hsettled, hsteady, -⟩
  rw [Action.ends_bind, Action.ends_get]
  dsimp only
  cases settled.log with
  | none => exact hsettled
  | some log =>
      dsimp only
      rw [Action.ends_ite]
      refine ⟨fun _ => hsettled, fun _ => ?_⟩
      rw [Action.ends_bind, ends_resetAfter, ends_onLog]
      refine (OpenLog.ensures_flush_of_any log middle).ends.mono ?_ ?_
      · rintro _ ⟨log', after⟩ -
        rw [Action.ends_bind, Action.ends_get, ends_update]
        refine ⟨fun hreset => ?_, fun _ => [], settled.next.toNat, Nat.le_refl _,
          Ledger.entries_self.symm⟩
        rw [show settled.needsReset = true from hreset] at hsteady
        cases hsteady
      · rintro e ⟨log', after⟩ hbroken
        refine hsettled.of_queue_eq rfl rfl fun _ => ?_
        rintro _ ⟨⟩
        exact hbroken

theorem Tidy.ends_finishAfter (h : writer.Tidy) (before : Writer Stream)
    (errors : List JournalError) (medium : Medium Memory) :
    (before.finishAfter errors).Ends (writer, medium) (fun _ s => s.1.Tidy)
      (fun _ s => s.1.Tidy) True := by
  have hshut : (shut writer).Tidy :=
    h.of_queue_eq rfl rfl fun _ _ hnone => (by cases hnone)
  unfold finishAfter
  dsimp only
  rw [Action.ends_bind, ends_update]
  split <;> exact hshut

/-- What closing does once the writer was reset, if it needed that, with these errors. -/
def finishSettled {σ η : Type} [Storage σ η] (resetErrors : List JournalError) :
    Action JournalError (Writer η × Medium σ) Unit := do
  let (writer, _) ← get
  let commitErrors ←
    match writer.log with
    | none => pure []
    | some log =>
      if resetErrors.isEmpty then
        errorsOf (onLog log (OpenLog.commit writer.journal writer.next))
      else
        onLog log OpenLog.abandon
        pure []
  writer.finishAfter (resetErrors ++ commitErrors)

/-- Whatever became of the reset, the open log keeps no stream. -/
theorem Tidy.ends_finishSettled (h : writer.Tidy) (resetErrors : List JournalError)
    (medium : Medium Memory) :
    (finishSettled resetErrors).Ends (writer, medium) (fun _ s => s.1.Tidy)
      (fun _ s => s.1.Tidy) True := by
  have hlog (log' : OpenLog Stream) (hstream : log'.stream = none) :
      ({ writer with log := some log' } : Writer Stream).Tidy := by
    refine h.of_queue_eq rfl rfl fun _ => ?_
    rintro _ ⟨⟩
    exact OpenLog.adrift_of_stream_eq_none hstream
  rw [finishSettled, Action.ends_bind, Action.ends_get]
  dsimp only
  cases writer.log with
  | none => exact h.ends_finishAfter writer _ medium
  | some log =>
      dsimp only
      rw [Action.ends_ite]
      constructor
      · intro _
        rw [Action.ends_bind, ends_errorsOf, ends_onLog]
        exact (OpenLog.ends_commit _ _ log medium).mono
          (fun _ s hstream => (hlog s.1 hstream).ends_finishAfter writer _ s.2)
          (fun _ s hstream => (hlog s.1 hstream).ends_finishAfter writer _ s.2)
      · intro _
        rw [Action.ends_bind, ends_onLog]
        refine (OpenLog.ends_abandon log medium).mono ?_ ?_
        · rintro _ ⟨_, after⟩ rfl
          exact (hlog _ rfl).ends_finishAfter writer _ after
        · rintro e ⟨_, after⟩ rfl
          exact hlog _ rfl

theorem finish_eq {σ η : Type} [Storage σ η] :
    (finish : Action JournalError (Writer η × Medium σ) Unit) = (do
    let (writer, _) ← get
    if writer.closed then return ()
    let resetErrors ← errorsOf settle
    finishSettled resetErrors) := by
  funext state
  obtain ⟨writer, medium⟩ := state
  unfold finish finishSettled
  simp only [Action.get_bind_apply]
  refine congrFun (ite_congr rfl (fun _ => rfl) fun _ => ?_) _
  refine congrArg _ (funext fun resetErrors => funext fun settled => ?_)
  simp only [Action.get_bind_apply]
  cases settled.1.log <;> rfl

/-- A writer that is closed has no log any more. -/
theorem Tidy.ends_finish (h : writer.Tidy) (medium : Medium Memory) :
    finish.Ends (writer, medium) (fun _ s => s.1.Tidy) (fun _ s => s.1.Tidy) True := by
  rw [finish_eq, Action.ends_bind, Action.ends_get]
  dsimp only
  rw [Action.ends_ite]
  refine ⟨fun _ => h, fun _ => ?_⟩
  rw [Action.ends_bind, ends_errorsOf]
  exact (h.ends_settle medium).mono
    (fun _ s hsettled => hsettled.1.ends_finishSettled [] s.2)
    (fun e s hsettled => hsettled.ends_finishSettled [e] s.2)

/-! ### Every writer that can be reached -/

/-- An operation keeps what its action keeps, unless it crashes; then it is remembered. -/
theorem leaves_operation {α : Type} {x : Action JournalError (Writer Stream × Medium Memory) α}
    {P : Writer Stream → Prop} (hwriter : writer.poisoned = true ∨ P writer)
    (h : P writer → x.Ends (writer, medium) (fun _ s => P s.1) (fun _ s => P s.1) True) :
    ((operation x).leaves (writer, medium)).1.poisoned = true ∨
      P ((operation x).leaves (writer, medium)).1 := by
  refine Action.EndsIn.leaves (P := fun s => s.1.poisoned = true ∨ P s.1)
    ((endsIn_operation x (writer, medium) _ _ _).2 ⟨fun _ => hwriter, fun hsound => ?_⟩)
  have hends := h (hwriter.resolve_left (by rw [hsound]; exact Bool.false_ne_true))
  exact hends.endsIn.mono (fun _ _ h => .inr h) (fun _ _ h => .inr h) fun _ _ => .inl rfl

/-- A writer that was started, and whose operations were run on any media since. -/
inductive Reached : Writer Stream → Prop where
  /-- It was started. -/
  | started {journal : Journal} {next : UInt64} {writer : Writer Stream}
      {medium after : Medium Memory} (h : start journal next medium = .ok writer after) :
      Reached writer
  /-- It was given an entry. -/
  | wrote {writer : Writer Stream} (h : Reached writer) (entry : Entry)
      (medium : Medium Memory) : Reached ((write entry).leaves (writer, medium)).1
  /-- It was flushed. -/
  | flushed {writer : Writer Stream} (h : Reached writer) (medium : Medium Memory) :
      Reached (Action.leaves flush (writer, medium)).1
  /-- It was closed. -/
  | ended {writer : Writer Stream} (h : Reached writer) (medium : Medium Memory) :
      Reached (Action.leaves close (writer, medium)).1
  /-- The collector beside it went on. -/
  | collected {writer : Writer Stream} (h : Reached writer) (collector : Option Collector) :
      Reached { writer with collector }

theorem tidy_of_start {journal : Journal} {next : UInt64} {after : Medium Memory}
    (h : start journal next medium = .ok writer after) : writer.Tidy := by
  obtain ⟨_, -, rfl⟩ := exists_snapshot_of_start h
  exact ⟨fun hreset => (by cases hreset), fun _ => [], next.toNat, Nat.le_refl _,
    Ledger.entries_self.symm⟩

/-- Every writer that can be reached is tidy, or it crashed. -/
theorem Reached.poisoned_or_tidy (h : writer.Reached) :
    writer.poisoned = true ∨ writer.Tidy := by
  induction h with
  | started h => exact .inr (tidy_of_start h)
  | wrote h entry medium ih => exact leaves_operation ih fun htidy => htidy.ends_append entry medium
  | flushed h medium ih => exact leaves_operation ih fun htidy => htidy.ends_push medium
  | ended h medium ih => exact leaves_operation ih fun htidy => htidy.ends_finish medium
  | collected h collector ih => exact ih.imp id fun htidy => htidy.of_queue_eq rfl rfl htidy.adrift

/-- A course leads from a writer that can be reached to another one. -/
theorem Reached.step {course : Course} (h : course.writer.Reached) (move : Move) :
    (course.step move).writer.Reached := by
  cases move with
  | write entry =>
      have hreached := h.wrote entry course.medium
      rwa [course.leaves_write entry] at hreached
  | flush =>
      have hreached := h.flushed course.medium
      rwa [course.leaves_flush] at hreached
  | close =>
      have hreached := h.ended course.medium
      rwa [course.leaves_close] at hreached
  | arm fault => exact h
  | armCall fault => exact h

theorem Reached.run {course : Course} (h : course.writer.Reached) (moves : List Move) :
    (course.run moves).writer.Reached := by
  induction moves generalizing course with
  | nil => exact h
  | cons move moves ih => exact ih (h.step move)

theorem Reached.tidy (h : writer.Reached) (hsound : writer.poisoned = false) : writer.Tidy :=
  h.poisoned_or_tidy.resolve_left (by rw [hsound]; exact Bool.false_ne_true)

end Writer

end SegmentedJournal
