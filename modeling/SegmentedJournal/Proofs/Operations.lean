import SegmentedJournal.Proofs.Reset
/-!
# Operations of a writer

What each operation of a working writer does: it succeeds and the writer is ready, or it is set
back (`Account.Setback`), with a failure used up and the writer still working.  An entry that is
appended has the next number and stands in the queue (`Working.ensures_append`); a flush promises
every entry so far (`Working.ensures_push`); and closing completes the last log, or leaves the files
where they durably end (`Working.ensures_finish`).
-/

namespace SegmentedJournal

open Memory (Stream)
open Medium (Fired Foiled Keeps Quieter)

namespace Writer

/-! ### The parts of operations -/

section

variable {σ η : Type} [Storage σ η]

/-- A writer that was started has nothing but the current log of the journal's snapshot. -/
theorem exists_snapshot_of_start {journal : Journal} {next : UInt64} {writer : Writer η}
    {medium started : Medium σ} (h : start journal next medium = .ok writer started) :
    ∃ snapshot, journal.snapshot medium = .ok snapshot started ∧ writer = {
      journal, next, log := snapshot.current.map OpenLog.adopt
      collector := if journal.config.gcEnabled then some { journal } else none } := by
  have hstart : (start journal next : Action JournalError (Medium σ) (Writer η)).Ends medium
      (fun writer started => ∃ snapshot, journal.snapshot medium = .ok snapshot started ∧
        writer = { journal, next, log := snapshot.current.map OpenLog.adopt
                   collector := if journal.config.gcEnabled then some { journal } else none })
      (fun _ _ => True) True := by
    rw [start, Action.ends_bind, Action.ends_ofExcept]
    refine ⟨fun _ _ => ?_, fun _ _ => trivial⟩
    rw [Action.ends_bind]
    exact (Action.ends_run _ _).mono (fun snapshot _ hsnapshot => ⟨snapshot, hsnapshot, rfl⟩)
      fun _ _ _ => trivial
  exact hstart.of_ok h

/-- A writer that was started is open, it has not crashed, and neither has its collector. -/
theorem fresh_of_start {journal : Journal} {next : UInt64} {writer : Writer η}
    {medium started : Medium σ} (h : start journal next medium = .ok writer started) :
    writer.closed = false ∧ writer.poisoned = false ∧
      ∀ collector ∈ writer.collector, collector.crashed = false := by
  obtain ⟨_, -, rfl⟩ := exists_snapshot_of_start h
  refine ⟨rfl, rfl, fun collector hcollector => ?_⟩
  dsimp only at hcollector
  split at hcollector
  · cases hcollector
    rfl
  · cases hcollector

/-- A new log is opened for the entry with a number. -/
def openNext (next : UInt64) : Action JournalError (Writer η × Medium σ) (OpenLog η) := do
  let log ← openLog next
  update fun writer => { writer with rotateNext := false }
  return log

/-- What a flush does to an open log that was written to. -/
def flushOpen (writer : Writer η) (log : OpenLog η) :
    Action JournalError (Writer η × Medium σ) Unit := do
  resetAfter (fun _ => true) (onLog log OpenLog.flush)
  let (_, medium) ← get
  let full := writer.journal.config.maxLogBytes.toNat ≤ log.written
  let ended := full || !Storage.supportsFlush medium.storage
  update fun writer => { writer with unflushed := [], rotateNext := writer.rotateNext || ended }

/-- What closing does last, after errors on the way. -/
def finishAfter (writer : Writer η) (errors : List JournalError) :
    Action JournalError (Writer η × Medium σ) Unit := do
  let stopErrors := match writer.collector.map Collector.stop with
    | some (.error error) => [error]
    | _ => []
  update fun writer => { writer with log := none, collector := none, closed := true }
  match errors ++ stopErrors with
  | [] => return ()
  | [error] => Action.fail error
  | errors => Action.fail (.shutdown errors)

/-- The writer once it is closed. -/
def shut (writer : Writer η) : Writer η :=
  { writer with log := none, collector := none, closed := true }

omit [Storage σ η] in
/-- Whatever errors there were, the writer is closed. -/
theorem ensures_finishAfter_of_any (before : Writer η) (errors : List JournalError)
    (writer : Writer η) (medium : Medium σ) :
    (before.finishAfter errors).Ensures (writer, medium)
      (fun _ s => s = (writer.shut, medium)) (fun _ s => s = (writer.shut, medium)) := by
  unfold finishAfter
  dsimp only
  rw [Action.ensures_bind, ensures_update]
  split <;> rfl

end

/-- A collector that has not crashed adds no error. -/
theorem ensures_finishAfter (errors : List JournalError) {before : Writer Stream}
    (hcollector : ∀ collector ∈ before.collector, collector.crashed = false)
    (writer : Writer Stream) (medium : Medium Memory)
    (Q : Unit → Writer Stream × Medium Memory → Prop)
    (E : JournalError → Writer Stream × Medium Memory → Prop) :
    (before.finishAfter errors).Ensures (writer, medium) Q E ↔
      match errors with
      | [] => Q () (shut writer, medium)
      | [error] => E error (shut writer, medium)
      | errors => E (.shutdown errors) (shut writer, medium) := by
  have hstop : before.collector.map Collector.stop = none ∨
      before.collector.map Collector.stop = some (.ok ()) := by
    cases hsome : before.collector with
    | none => exact .inl rfl
    | some collector => exact .inr (by simp [Collector.stop, hcollector collector hsome])
  unfold finishAfter
  rcases hstop with hstop | hstop
  all_goals
    rw [hstop]
    dsimp only
    rw [Action.ensures_bind, ensures_update, List.append_nil]
    match errors with
    | [] => rfl
    | [error] => rfl
    | error :: error' :: errors => rfl

end Writer

namespace Account

variable {account : Account} {writer : Writer Stream} {log : OpenLog Stream} {stream : Stream}
  {medium : Medium Memory} {a d f m n p : Nat} {entry : Entry} {current : Option Segment}

/-! ### Settling -/

theorem Ready.steady (h : account.Ready n d writer medium) : writer.needsReset = false := by
  cases h with
  | idle h => exact h.steady
  | parked a log h => exact h.steady
  | live a p f log stream h => exact h.steady

/-- A writer that is reset if it needs it is ready. -/
theorem Working.ensures_settle (h : account.Working n d writer medium)
    (hserves : account.Serves n writer medium) :
    Writer.settle.Ensures (writer, medium)
      (fun _ s => writer.Alike s.1 ∧ Quieter medium s.2 ∧ account.Ready n d s.1 s.2)
      (fun e s => account.Unsettled n d writer medium e s) := by
  rw [Writer.settle, Action.ensures_bind, Action.ensures_get]
  dsimp only
  cases h with
  | ready h =>
      rw [h.steady, if_neg Bool.false_ne_true]
      exact ⟨.refl writer, .refl medium, h⟩
  | damaged f current a m h =>
      rw [h.needsReset, if_pos rfl]
      refine (h.ensures_reset hserves).mono ?_ (fun _ _ h => h)
      rintro _ ⟨writer', after⟩ ⟨halike, hquieter, -, ⟨log, stream, hlive⟩, -⟩
      exact ⟨halike, hquieter, .live _ _ _ log stream hlive⟩

/-! ### The log for the next entry -/

/-- A new log is opened for the next entry. -/
theorem Stands.ensures_openNext (h : account.Stands medium.storage.files none n)
    (writer : Writer Stream)
    (hjournal : writer.journal = account.journal) (hsteady : writer.needsReset = false)
    (hqueue : writer.unflushed = []) (hdn : d ≤ n) :
    (Writer.openNext (UInt64.ofNat n)).Ensures (writer, medium)
      (fun log s => writer.Alike s.1 ∧ Quieter medium s.2 ∧ s.1.rotateNext = false ∧
        ∃ stream, account.Live n d n n n log stream s.1 s.2)
      (fun e s => account.Setback n d writer medium e s) := by
  rw [Writer.openNext, Action.ensures_bind]
  refine (h.ensures_openLog hjournal).mono ?_ ?_
  · rintro log ⟨_, after⟩ ⟨rfl, hsegment, -, ⟨stream, hstream, hfeeds⟩, hquieter, -⟩
    rw [Action.ensures_bind, Writer.ensures_update]
    refine ⟨⟨rfl, rfl, rfl, rfl, rfl⟩, hquieter, rfl, stream, rfl, hsegment, hstream, hsteady,
      hfeeds, ?_, fun _ => rfl, Nat.le_refl n, Nat.le_refl n, .inl rfl, fun _ => rfl, hdn⟩
    rw [Ledger.entries_self]
    exact hqueue
  · rintro e ⟨_, after⟩ ⟨rfl, hmild, hfoiled⟩
    rw [← hfoiled.files_eq] at h
    exact ⟨hmild, ⟨rfl, rfl, rfl, rfl, rfl⟩, hfoiled.toFired,
      .ready (.idle ⟨rfl, hsteady, hqueue, hdn, h⟩)⟩

/-- A commit that failed before the next log is opened leaves the writer working. -/
theorem Uncommitted.setback {after : Medium Memory} {e : JournalError}
    (h : account.Uncommitted medium after log.segment p n e)
    (hsteady : writer.needsReset = false) (hrotate : writer.rotateNext = true)
    (hqueue : writer.unflushed = []) (hdn : d ≤ n)
    (hp : medium.storage.publishing = .onFlush → p = n) :
    account.Setback n d writer medium e
      (if Writer.isWriteFailure e then
          { writer with log := some { log with stream := none }, needsReset := true }
        else { writer with log := some { log with stream := none } }, after) := by
  refine ⟨h.mild, ?_, h.fired, ?_⟩
  · split <;> exact ⟨rfl, rfl, rfl, rfl, rfl⟩
  -- The file has everything, or it was not closed; then a reset finds what was published before.
  rcases h.durable with ⟨hfailure, a, hdurable⟩ | ⟨hfailure, hpublishing, current, a, hdurable⟩
  · rw [hfailure, if_neg Bool.false_ne_true]
    exact .ready (.parked a _ ⟨rfl, rfl, hsteady, hrotate, hqueue, hdn, hdurable⟩)
  · rw [hp hpublishing] at hdurable
    rw [hfailure, if_pos rfl]
    refine .damaged n current a n ⟨rfl, ?_, hdurable, ?_, Nat.le_refl n, Nat.le_refl n, hdn⟩
    · rintro _ ⟨⟩ stream hstream
      cases hstream
    · rw [Ledger.entries_self]
      exact hqueue

/-- A log that ends is completed, and another is opened, if the commit does what it should. -/
theorem ensures_rotate_of_commit (hserves : account.Serves n writer medium)
    (hlog : writer.log = some log) (hsteady : writer.needsReset = false)
    (hrotate : writer.rotateNext = true) (hqueue : writer.unflushed = []) (hdn : d ≤ n)
    (hp : medium.storage.publishing = .onFlush → p = n)
    (hcommit : (OpenLog.commit account.journal (UInt64.ofNat n)).Ensures (log, medium)
      (fun _ s => Quieter medium s.2 ∧ account.Stands s.2.storage.files none n)
      (fun e s => s.1 = { log with stream := none } ∧
        account.Uncommitted medium s.2 log.segment p n e)) :
    Writer.rotate.Ensures (writer, medium)
      (fun log s => writer.Alike s.1 ∧ Quieter medium s.2 ∧ s.1.rotateNext = false ∧
        ∃ stream, account.Live n d n n n log stream s.1 s.2)
      (fun e s => account.Setback n d writer medium e s) := by
  rw [Writer.rotate, Action.ensures_bind, Action.ensures_get]
  dsimp only
  rw [hserves.next_eq, hserves.journal_eq, hlog]
  dsimp only
  rw [Action.ensures_bind, Action.ensures_discard, Writer.ensures_resetAfter,
    Writer.ensures_onLog]
  refine hcommit.mono ?_ ?_
  · rintro _ ⟨log', middle⟩ ⟨hquieter, hstands⟩
    have halike : writer.Alike { writer with log := some log' } := ⟨rfl, rfl, rfl, rfl, rfl⟩
    refine (hstands.ensures_openNext { writer with log := some log' }
      hserves.journal_eq hsteady hqueue hdn).mono ?_ ?_
    · rintro next s ⟨halike', hquieter', hlive⟩
      exact ⟨halike.trans halike', hquieter.trans hquieter', hlive⟩
    · intro e s hfailed
      exact hfailed.before halike hquieter
  · rintro e ⟨_, after⟩ ⟨rfl, huncommitted⟩
    exact huncommitted.setback hsteady hrotate hqueue hdn hp

/-- A log that ends is completed, and another is opened. -/
theorem Ready.ensures_rotate (h : account.Ready n d writer medium)
    (hserves : account.Serves n writer medium)
    (hends : writer.log ≠ none → writer.rotateNext = true) :
    Writer.rotate.Ensures (writer, medium)
      (fun log s => writer.Alike s.1 ∧ Quieter medium s.2 ∧ s.1.rotateNext = false ∧
        ∃ stream, account.Live n d n n n log stream s.1 s.2)
      (fun e s => account.Setback n d writer medium e s) := by
  cases h with
  | idle h =>
      rw [Writer.rotate, Action.ensures_bind, Action.ensures_get]
      dsimp only
      rw [hserves.next_eq, h.log_eq]
      exact h.stands.ensures_openNext writer hserves.journal_eq h.steady h.queue h.promised
  | parked a log h =>
      have hrotate := hends (by rw [h.log_eq]; exact Option.some_ne_none log)
      exact ensures_rotate_of_commit hserves h.log_eq h.steady hrotate h.queue h.promised
        (fun _ => rfl) (h.durable.ensures_commit hserves.bound h.stream_eq)
  | live a p f log stream h =>
      have hrotate := hends (by rw [h.log_eq]; exact Option.some_ne_none log)
      obtain rfl := h.rotating hrotate
      refine ensures_rotate_of_commit hserves h.log_eq h.steady hrotate
        (by rw [h.queue, Ledger.entries_self]) h.promised ?_
        (h.feeds.ensures_commit hserves.bound h.stream_eq h.segment_eq hserves.tame)
      intro hflush
      rcases h.published with heq | ⟨hclose, -⟩
      · exact heq.symm
      · rw [hflush] at hclose
        cases hclose

/-- The log for the next entry is one that does not end yet. -/
theorem Ready.ensures_logForNext (h : account.Ready n d writer medium)
    (hserves : account.Serves n writer medium) :
    Writer.logForNext.Ensures (writer, medium)
      (fun log s => writer.Alike s.1 ∧ Quieter medium s.2 ∧ s.1.rotateNext = false ∧
        ∃ a p stream, account.Live n d a p p log stream s.1 s.2)
      (fun e s => account.Setback n d writer medium e s) := by
  rw [Writer.logForNext, Action.ensures_bind, Action.ensures_get]
  dsimp only
  cases hlog : writer.log with
  | none =>
      refine (h.ensures_rotate hserves fun hsome => absurd hlog hsome).mono ?_ (fun _ _ h => h)
      rintro log s ⟨halike, hquieter, hrotate, stream, hlive⟩
      exact ⟨halike, hquieter, hrotate, n, n, stream, hlive⟩
  | some log =>
      dsimp only
      rw [Action.ensures_ite]
      constructor
      · intro hrotate
        refine (h.ensures_rotate hserves fun _ => hrotate).mono ?_ (fun _ _ h => h)
        rintro log' s ⟨halike, hquieter, hrotate, stream, hlive⟩
        exact ⟨halike, hquieter, hrotate, n, n, stream, hlive⟩
      · intro hrotate
        cases h with
        | idle h =>
            rw [h.log_eq] at hlog
            cases hlog
        | parked a log' h => exact absurd h.rotating hrotate
        | live a p f log' stream h =>
            -- A log that goes on has published what was flushed.
            have hsame := h.log_eq
            rw [hlog] at hsame
            cases hsame
            obtain rfl : f = p := h.published.resolve_right fun hclose => hrotate hclose.2
            exact ⟨.refl writer, .refl medium, by simpa using hrotate, a, f, stream, h⟩

/-! ### Appending -/

/-- **Append**: an entry gets the next number and is held back or published, or the writer is set
back and the number is still free. -/
theorem Working.ensures_append (h : account.Working n d writer medium)
    (hserves : account.Serves n writer medium) (hclosed : writer.closed = false)
    (hfits : entry.Fits) :
    (Writer.append entry).Ensures (writer, medium)
      (fun q s => q = UInt64.ofNat n ∧ Quieter medium s.2 ∧
        writer.Alike { s.1 with next := writer.next } ∧ s.1.next = UInt64.ofNat (n + 1) ∧
        (entry.payload = account.ledger n →
          ∃ a p log stream, account.Live (n + 1) d a p p log stream s.1 s.2))
      (fun e s => account.Setback n d writer medium e s) := by
  rw [Writer.append, Action.ensures_bind, Action.ensures_get]
  dsimp only
  rw [hclosed, if_neg Bool.false_ne_true, Action.ensures_bind]
  refine (h.ensures_settle hserves).mono ?_ (fun _ _ h => h.toSetback)
  rintro _ ⟨settled, middle⟩ ⟨halike, hquieter, hready⟩
  have hserves := hserves.of_alike halike hquieter
  rw [Action.ensures_bind, Action.ensures_get]
  dsimp only
  rw [hserves.next_eq, Action.ensures_bind]
  refine (hready.ensures_logForNext hserves).mono ?_
    (fun e s hfailed => hfailed.before halike hquieter)
  rintro log ⟨writer', last⟩ ⟨halike', hquieter', hrotate, a, p, stream, hlive⟩
  have halike := halike.trans halike'
  have hquieter := hquieter.trans hquieter'
  rw [Action.ensures_bind, Writer.ensures_resetAfter, Writer.ensures_onLog]
  have hfits : ({ entry with sequence := UInt64.ofNat n } : Entry).Fits := hfits
  refine (hlive.feeds.ensures_append hlive.stream_eq hfits).mono ?_ ?_
  · rintro _ ⟨_, after⟩ ⟨hkeeps, stream', rfl, hfeeds⟩
    rw [Action.ensures_bind, Writer.ensures_update, Action.ensures_bind,
      ensures_successor_ofNat (Nat.lt_of_le_of_lt hserves.bound (by decide)), Action.ensures_bind,
      Writer.ensures_update]
    refine ⟨rfl, hquieter.trans hkeeps.toQuieter,
      ⟨halike.1, rfl, halike.3, halike.4, halike.5⟩, rfl, ?_⟩
    intro hpayload
    have hentry : { entry with sequence := UInt64.ofNat n } = account.ledger.entry n := by
      rw [hpayload]
      rfl
    refine ⟨a, p, _, stream', rfl, hlive.segment_eq, rfl, hlive.steady, hfeeds hentry, ?_, ?_,
      hlive.le_left, Nat.le_succ_of_le hlive.le_right, .inl rfl, ?_, hlive.promised⟩
    · -- The queue ends with the entry.
      show writer'.unflushed ++ _ = _
      rw [hlive.queue, hentry, Ledger.entries_succ hlive.le_right]
    · intro hzero
      have hlength := Entry.encodedLength_eq { entry with sequence := UInt64.ofNat n }
      dsimp only at hzero
      omega
    · intro hrotate'
      exact absurd (hrotate.symm.trans hrotate') Bool.false_ne_true
  · rintro e ⟨_, after⟩ ⟨hmild, stream', rfl, hbroken⟩
    obtain ⟨current, a', m, hdurable, hpm, hmn⟩ := hbroken.durable
    refine ⟨hmild, ⟨halike.1, halike.2, halike.3, halike.4, halike.5⟩,
      hquieter.fired hbroken.fired, .damaged p current a' m ⟨rfl, ?_, hdurable, hlive.queue, hpm,
        hmn, hlive.promised⟩⟩
    rintro _ ⟨⟩ _ ⟨⟩
    exact hbroken.broken

/-! ### Flushing -/

theorem Live.flushed_eq (h : account.Live n d a p f log stream writer medium)
    (hflush : medium.storage.publishing = .onFlush) : f = p :=
  h.published.resolve_right fun hclose => by
    rw [hflush] at hclose
    cases hclose.1

/-- A log that nothing was written to keeps every promise. -/
theorem Live.promise_of_unwritten (h : account.Live n d a p f log stream writer medium)
    (hwritten : log.written = 0) : account.Live n n a p f log stream writer medium := by
  have hna := h.written hwritten
  exact ⟨h.log_eq, h.segment_eq, h.stream_eq, h.steady, h.feeds, h.queue, h.written, h.le_left,
    h.le_right, h.published, h.rotating, hna ▸ h.le_left⟩

/-- The open log is flushed, and the queue with it. -/
theorem Live.ensures_flush (h : account.Live n d a p f log stream writer medium) :
    (writer.flushOpen log).Ensures (writer, medium)
      (fun _ s => writer.Alike s.1 ∧ Quieter medium s.2 ∧ account.Ready n n s.1 s.2)
      (fun e s => account.Setback n d writer medium e s) := by
  rw [Writer.flushOpen, Action.ensures_bind, Writer.ensures_resetAfter, Writer.ensures_onLog]
  refine (h.feeds.ensures_flushLog h.stream_eq).mono ?_ ?_
  · rintro _ ⟨_, after⟩ ⟨hquieter, stream', rfl, hfeeds⟩
    rw [Action.ensures_bind, Action.ensures_get]
    dsimp only
    rw [Writer.ensures_update]
    refine ⟨⟨rfl, rfl, rfl, rfl, rfl⟩, hquieter, ?_⟩
    have hqueue : ([] : List Entry) = account.ledger.entries n n := Ledger.entries_self.symm
    have han : a ≤ n := Nat.le_trans h.le_left h.le_right
    rcases hfeeds with ⟨-, hfeeds⟩ | ⟨hclose, hfeeds⟩
    · exact .live a n n _ stream' ⟨rfl, h.segment_eq, rfl, h.steady, hfeeds, hqueue, h.written,
        han, Nat.le_refl n, .inl rfl, fun _ => rfl, Nat.le_refl n⟩
    · have hclose' : after.storage.publishing = .onClose := hquieter.publishing_eq.trans hclose
      refine .live a p n _ stream' ⟨rfl, h.segment_eq, rfl, h.steady, hfeeds, hqueue, h.written,
        han, Nat.le_refl n, .inr ⟨hclose', ?_⟩, fun _ => rfl, Nat.le_refl n⟩
      simp [Storage.supportsFlush, hclose']
  · rintro e ⟨_, after⟩ ⟨hmild, hflush, stream', rfl, hbroken⟩
    obtain ⟨current, a', m, hdurable, hpm, hmn⟩ := hbroken.durable
    rw [← h.flushed_eq hflush] at hpm
    refine ⟨hmild, ⟨rfl, rfl, rfl, rfl, rfl⟩, hbroken.fired,
      .damaged f current a' m ⟨rfl, ?_, hdurable, h.queue, hpm, hmn, h.promised⟩⟩
    rintro _ ⟨⟩ _ ⟨⟩
    exact hbroken.broken

/-- **Flush**: every entry so far is promised. -/
theorem Working.ensures_push (h : account.Working n d writer medium)
    (hserves : account.Serves n writer medium) (hclosed : writer.closed = false) :
    Writer.push.Ensures (writer, medium)
      (fun _ s => writer.Alike s.1 ∧ Quieter medium s.2 ∧ account.Ready n n s.1 s.2)
      (fun e s => account.Setback n d writer medium e s) := by
  rw [Writer.push, Action.ensures_bind, Action.ensures_get]
  dsimp only
  rw [hclosed, if_neg Bool.false_ne_true, Action.ensures_bind]
  refine (h.ensures_settle hserves).mono ?_ (fun _ _ h => h.toSetback)
  rintro _ ⟨settled, middle⟩ ⟨halike, hquieter, hready⟩
  rw [Action.ensures_bind, Action.ensures_get]
  dsimp only
  cases hready with
  | idle h =>
      rw [h.log_eq]
      exact ⟨halike, hquieter, .idle ⟨h.log_eq, h.steady, h.queue, Nat.le_refl n, h.stands⟩⟩
  | parked a log h =>
      rw [h.log_eq]
      dsimp only
      rw [h.stream_eq]
      exact ⟨halike, hquieter, .parked a log ⟨h.log_eq, h.stream_eq, h.steady, h.rotating,
        h.queue, Nat.le_refl n, h.durable⟩⟩
  | live a p f log stream h =>
      rw [h.log_eq]
      dsimp only
      rw [h.stream_eq, Action.ensures_ite]
      constructor
      · intro hwritten
        exact ⟨halike, hquieter, .live a p f log stream
          (h.promise_of_unwritten (by simpa using hwritten))⟩
      · intro hwritten
        refine h.ensures_flush.mono ?_ ?_
        · rintro _ s ⟨halike', hquieter', hready⟩
          exact ⟨halike.trans halike', hquieter.trans hquieter', hready⟩
        · intro e s hfailed
          exact hfailed.before halike hquieter

/-! ### Closing -/

/-- A closed writer has let its log go, and the files end at `m`. -/
structure Ended (account : Account) (n d m : Nat) (medium : Medium Memory) : Prop where
  /-- The files end at `m`. -/
  durable : ∃ current a, account.Durable medium.storage.files current a m
  /-- What was promised is durable. -/
  promised : d ≤ m
  /-- The files have only entries that were written. -/
  le : m ≤ n

theorem Ready.stands_of_log_eq_none (h : account.Ready n d writer medium)
    (hlog : writer.log = none) : account.Stands medium.storage.files none n := by
  cases h with
  | idle h => exact h.stands
  | parked a log h =>
      rw [h.log_eq] at hlog
      cases hlog
  | live a p f log stream h =>
      rw [h.log_eq] at hlog
      cases hlog

/-- The open log of a ready writer is committed with all its entries; a commit that fails leaves
the files where they durably end. -/
theorem Ready.ensures_commit (h : account.Ready n d writer medium)
    (hserves : account.Serves n writer medium) (hlog : writer.log = some log) :
    (OpenLog.commit account.journal (UInt64.ofNat n)).Ensures (log, medium)
      (fun _ s => Quieter medium s.2 ∧ account.Stands s.2.storage.files none n)
      (fun e s => e.isFatal = false ∧ Fired medium s.2 ∧ ∃ m, account.Ended n d m s.2) := by
  cases h with
  | idle h =>
      rw [h.log_eq] at hlog
      cases hlog
  | parked a log' h =>
      obtain rfl : log' = log := Option.some.inj (h.log_eq.symm.trans hlog)
      refine (h.durable.ensures_commit hserves.bound h.stream_eq).mono (fun _ _ h => h) ?_
      rintro e s ⟨-, huncommitted⟩
      refine ⟨huncommitted.mild, huncommitted.fired, n, ?_, h.promised, Nat.le_refl n⟩
      rcases huncommitted.durable with ⟨-, a, hdurable⟩ | ⟨-, -, current, a, hdurable⟩
      · exact ⟨_, a, hdurable⟩
      · exact ⟨current, a, hdurable⟩
  | live a p f log' stream h =>
      obtain rfl : log' = log := Option.some.inj (h.log_eq.symm.trans hlog)
      refine (h.feeds.ensures_commit hserves.bound h.stream_eq h.segment_eq hserves.tame).mono
        (fun _ _ h => h) ?_
      rintro e s ⟨-, huncommitted⟩
      refine ⟨huncommitted.mild, huncommitted.fired, ?_⟩
      rcases huncommitted.durable with ⟨-, a, hdurable⟩ | ⟨-, hflush, current, a, hdurable⟩
      · exact ⟨n, ⟨_, a, hdurable⟩, Nat.le_trans h.promised h.le_right, Nat.le_refl n⟩
      · exact ⟨p, ⟨current, a, hdurable⟩, h.flushed_eq hflush ▸ h.promised, h.feeds.le_right⟩

/-- A reset that failed has left the writer damaged. -/
theorem Unsettled.exists_damaged {e : JournalError} {state : Writer Stream × Medium Memory}
    (h : account.Unsettled n d writer medium e state) :
    ∃ f current a m, account.Damaged n d f current a m state.1 state.2 := by
  cases h.working with
  | ready hready =>
      have hsteady := hready.steady
      rw [h.needsReset] at hsteady
      cases hsteady
  | damaged f current a m hdamaged => exact ⟨f, current, a, m, hdamaged⟩

theorem Damaged.ended (h : account.Damaged n d f current a m writer medium) :
    account.Ended n d m medium :=
  ⟨⟨current, a, h.durable⟩, Nat.le_trans h.promised h.le_left, h.le_right⟩

/-- **Close**: the last log is completed with every entry, or the files are left where they durably
end; either way the writer is closed. -/
theorem Working.ensures_finish (h : account.Working n d writer medium)
    (hserves : account.Serves n writer medium) (hclosed : writer.closed = false)
    (hcollector : ∀ collector ∈ writer.collector, collector.crashed = false) :
    Writer.finish.Ensures (writer, medium)
      (fun _ s => (∃ writer', writer.Alike writer' ∧ s.1 = writer'.shut) ∧ Quieter medium s.2 ∧
        account.Stands s.2.storage.files none n)
      (fun e s => (∃ writer', writer.Alike writer' ∧ s.1 = writer'.shut) ∧ e.isFatal = false ∧
        Fired medium s.2 ∧ ∃ m, account.Ended n d m s.2) := by
  rw [Writer.finish, Action.ensures_bind, Action.ensures_get]
  dsimp only
  rw [hclosed, if_neg Bool.false_ne_true, Action.ensures_bind, Writer.ensures_errorsOf]
  refine (h.ensures_settle hserves).mono ?_ ?_
  · rintro _ ⟨settled, middle⟩ ⟨halike, hquieter, hready⟩
    have hserves := hserves.of_alike halike hquieter
    rw [← halike.collector_eq] at hcollector
    rw [Action.ensures_bind, Action.ensures_get]
    dsimp only
    cases hlog : settled.log with
    | none =>
        dsimp only
        rw [Action.ensures_bind, Action.ensures_pure]
        refine (Writer.ensures_finishAfter [] hcollector settled middle _ _).2 ?_
        exact ⟨⟨settled, halike, rfl⟩, hquieter, hready.stands_of_log_eq_none hlog⟩
    | some log =>
        dsimp only
        rw [if_pos List.isEmpty_nil, hserves.journal_eq, hserves.next_eq, Action.ensures_bind,
          Writer.ensures_errorsOf, Writer.ensures_onLog]
        have halike (log : OpenLog Stream) : writer.Alike { settled with log := some log } :=
          ⟨halike.1, halike.2, halike.3, halike.4, halike.5⟩
        refine (hready.ensures_commit hserves hlog).mono ?_ ?_
        · rintro _ ⟨log', after⟩ ⟨hquieter', hstands⟩
          refine (Writer.ensures_finishAfter [] hcollector _ after _ _).2 ?_
          exact ⟨⟨_, halike log', rfl⟩, hquieter.trans hquieter', hstands⟩
        · rintro e ⟨log', after⟩ ⟨hmild, hfired, hended⟩
          refine (Writer.ensures_finishAfter [e] hcollector _ after _ _).2 ?_
          exact ⟨⟨_, halike log', rfl⟩, hmild, hquieter.fired hfired, hended⟩
  · rintro e ⟨settled, middle⟩ hunsettled
    -- The log is given up, and the files are left where they end.
    have halike := hunsettled.alike
    rw [← halike.collector_eq] at hcollector
    obtain ⟨f, current, a, m, hdamaged⟩ := hunsettled.exists_damaged
    rw [Action.ensures_bind, Action.ensures_get]
    dsimp only
    cases hlog : settled.log with
    | none =>
        dsimp only
        rw [Action.ensures_bind, Action.ensures_pure]
        refine (Writer.ensures_finishAfter [e] hcollector settled middle _ _).2 ?_
        exact ⟨⟨settled, halike, rfl⟩, hunsettled.mild, hunsettled.fired, m, hdamaged.ended⟩
    | some log =>
        dsimp only
        rw [if_neg (by simp), Action.ensures_bind, Writer.ensures_onLog]
        refine (OpenLog.ensures_abandon (hdamaged.adrift log hlog) middle).mono ?_
          (fun _ _ h => h.elim)
        rintro _ ⟨log', after⟩ ⟨-, hkeeps, -⟩
        rw [Action.ensures_bind, Action.ensures_pure]
        refine (Writer.ensures_finishAfter [e] hcollector _ after _ _).2 ?_
        have hended := hdamaged.ended
        exact ⟨⟨{ settled with log := some log' }, ⟨halike.1, halike.2, halike.3, halike.4,
          halike.5⟩, rfl⟩, hunsettled.mild, hunsettled.fired.quieter hkeeps.toQuieter, m,
          hkeeps.files_eq ▸ hended.durable, hended.promised, hended.le⟩

end Account

end SegmentedJournal
