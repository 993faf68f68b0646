import SegmentedJournal.Proofs.Reached
/-!
# Sessions of a writer

What a writer answers and keeps on storage of any kind, in whatever state each operation finds the
medium.  A session (`Writer.Session`) is a writer that was started at a number, with the entries it
has acknowledged since.  These have the numbers from the start on, whatever numbers the entries
given to it have, and the queue of the writer is the end of them (`Writer.Kept`).

A writer that is open and needs neither a reset nor a new log has a stream, and everything in its
queue was written to that stream's log (`Writer.Backed`).  So a flush that succeeds leaves no queue
behind, though it returns early where there is nothing to flush; and a write that fails to append
was failed by a stream (`Medium.Refuses`), and not for want of one.  Both are parts of
`Writer.Session.invariant`.
-/

namespace SegmentedJournal

namespace Writer

open Medium (Refuses Warrants)

variable {σ η : Type} [Storage σ η] {writer writer' : Writer η} {log : OpenLog η}
  {medium : Medium σ} {start : UInt64} {acknowledged queue : List Entry}

/-! ### What a writer keeps -/

/-- The log has a stream, and everything in the writer's queue was written to it. -/
structure Backed (writer : Writer η) (log : OpenLog η) : Prop where
  /-- It has a stream. -/
  stream : log.stream.isSome = true
  /-- It starts no later than the queue. -/
  start_le : log.segment.start.toNat + writer.unflushed.length ≤ writer.next.toNat
  /-- Where nothing was written to it nothing is in the queue. -/
  written : log.written = 0 → writer.unflushed = []

/-- What a writer started at a number keeps, once it has acknowledged these entries. -/
structure Kept (start : UInt64) (acknowledged : List Entry) (writer : Writer η) : Prop where
  /-- The entries have the numbers from the start on. -/
  numbers : acknowledged.map (fun entry => entry.sequence.toNat) =
    List.range' start.toNat acknowledged.length
  /-- The next number comes behind them. -/
  next_eq : writer.next.toNat = start.toNat + acknowledged.length
  /-- The queue is the end of them. -/
  queue : writer.unflushed <:+ acknowledged
  /-- Before a new log there is no queue. -/
  rotating : writer.needsReset = false → writer.rotateNext = true → writer.unflushed = []
  /-- Otherwise the open log has the queue. -/
  backed : writer.closed = false → writer.needsReset = false → writer.rotateNext = false →
    ∃ log, writer.log = some log ∧ writer.Backed log

namespace Kept

theorem of_eq (h : writer.Kept start acknowledged) (hnext : writer'.next = writer.next)
    (hqueue : writer'.unflushed = writer.unflushed) (hlog : writer'.log = writer.log)
    (hclosed : writer'.closed = writer.closed) (hneeds : writer'.needsReset = writer.needsReset)
    (hrotates : writer'.rotateNext = writer.rotateNext) : writer'.Kept start acknowledged := by
  refine ⟨h.numbers, hnext ▸ h.next_eq, hqueue ▸ h.queue, ?_, fun hopen hsteady hstays => ?_⟩
  · rw [hneeds, hrotates, hqueue]
    exact h.rotating
  · obtain ⟨log, hsome, hbacked⟩ :=
      h.backed (hclosed ▸ hopen) (hneeds ▸ hsteady) (hrotates ▸ hstays)
    refine ⟨log, hlog.trans hsome, hbacked.stream, ?_, ?_⟩
    · rw [hqueue, hnext]
      exact hbacked.start_le
    · rw [hqueue]
      exact hbacked.written

/-- Where a reset is needed nothing is said of the log. -/
theorem of_needsReset (h : writer.Kept start acknowledged) (hnext : writer'.next = writer.next)
    (hqueue : writer'.unflushed <:+ writer.unflushed) (hneeds : writer'.needsReset = true) :
    writer'.Kept start acknowledged := by
  refine ⟨h.numbers, hnext ▸ h.next_eq, hqueue.trans h.queue, fun hsteady => ?_,
    fun _ hsteady => ?_⟩ <;>
  · rw [hneeds] at hsteady
    cases hsteady

/-- Nor is it where the queue is empty and a new log comes next. -/
theorem of_rotateNext (h : writer.Kept start acknowledged) (hnext : writer'.next = writer.next)
    (hqueue : writer'.unflushed = []) (hrotates : writer'.rotateNext = true) :
    writer'.Kept start acknowledged := by
  refine ⟨h.numbers, hnext ▸ h.next_eq, hqueue ▸ List.nil_suffix, fun _ _ => hqueue,
    fun _ _ hstays => ?_⟩
  rw [hrotates] at hstays
  cases hstays

/-- Nor is it where the writer is closed. -/
theorem shut (h : writer.Kept start acknowledged) : writer.shut.Kept start acknowledged :=
  ⟨h.numbers, h.next_eq, h.queue, h.rotating, fun hopen => (by cases hopen)⟩

theorem of_backed (h : writer.Kept start acknowledged) (hnext : writer'.next = writer.next)
    (hqueue : writer'.unflushed <:+ writer.unflushed) (hstays : writer'.rotateNext = false)
    (hlog : writer'.log = some log) (hbacked : writer'.Backed log) :
    writer'.Kept start acknowledged := by
  refine ⟨h.numbers, hnext ▸ h.next_eq, hqueue.trans h.queue, fun _ hrotates => ?_,
    fun _ _ _ => ⟨log, hlog, hbacked⟩⟩
  rw [hstays] at hrotates
  cases hrotates

/-- The queue starts as far below the next number as it is long. -/
theorem toNat_head (h : writer.Kept start acknowledged) (hqueue : queue <:+ acknowledged) :
    (queue.head?.elim writer.next Entry.sequence).toNat + queue.length = writer.next.toNat := by
  cases queue with
  | nil => rfl
  | cons first rest =>
      obtain ⟨before, rfl⟩ := hqueue
      have hfirst := congrArg (fun numbers => numbers[before.length]?) h.numbers
      have hnext := h.next_eq
      simp only [List.map_append, List.map_cons, List.length_append, List.length_cons]
        at hfirst hnext
      rw [List.getElem?_append_right (by simp), List.length_map, Nat.sub_self,
        List.getElem?_cons_zero, List.getElem?_range' (by omega)] at hfirst
      have hsequence := Option.some.inj hfirst
      simp only [List.head?_cons, Option.elim_some, List.length_cons]
      omega

/-- An entry more is acknowledged, and is at the end of the queue. -/
theorem snoc {entry : Entry} {next : UInt64} (h : writer.Kept start acknowledged)
    (hentry : entry.sequence = writer.next) (hnext : next.toNat = writer.next.toNat + 1)
    (hstays : writer.rotateNext = false) (hstream : log.stream.isSome = true)
    (hstart : log.segment.start.toNat + writer.unflushed.length ≤ writer.next.toNat)
    (hwritten : log.written ≠ 0) :
    ({ writer with log := some log, unflushed := writer.unflushed ++ [entry], next } :
      Writer η).Kept start (acknowledged ++ [entry]) := by
  have hsequence : entry.sequence.toNat = start.toNat + acknowledged.length :=
    hentry ▸ h.next_eq
  refine ⟨?_, ?_, ?_, fun _ hrotates => ?_, fun _ _ _ => ⟨log, rfl, hstream, ?_, ?_⟩⟩
  · rw [List.map_append, h.numbers, List.length_append, List.length_singleton,
      List.range'_concat, List.map_singleton, hsequence, Nat.one_mul]
  · rw [List.length_append, List.length_singleton]
    show next.toNat = _
    rw [hnext, h.next_eq, Nat.add_assoc]
  · obtain ⟨before, hbefore⟩ := h.queue
    exact ⟨before, by rw [← hbefore, List.append_assoc]⟩
  · rw [show writer.rotateNext = true from hrotates] at hstays
    cases hstays
  · simp only [List.length_append, List.length_singleton]
    omega
  · exact fun hnone => absurd hnone hwritten

end Kept

/-! ### Steps -/

theorem isWriteFailure_of_checkFrontier {expected : UInt64} {e : JournalError}
    (h : writer.checkFrontier expected = .error e) : isWriteFailure e = false := by
  unfold checkFrontier at h
  split at h
  · split at h
    · cases h
      rfl
    · split at h <;> cases h
      rfl
  · split at h <;> cases h
    rfl

/-- The entries of the queue are written into a new log, or a reset is needed still. -/
theorem Kept.ensures_replay (h : writer.Kept start acknowledged) (hneeds : writer.needsReset = true)
    (medium : Medium σ) :
    (replay (writer.unflushed.head?.elim writer.next Entry.sequence) writer.unflushed).Ensures
      (writer, medium)
      (fun _ s => s.1.Kept start acknowledged ∧ s.1.needsReset = false ∧
        s.1.closed = writer.closed)
      (fun e s => s.1.Kept start acknowledged ∧ Warrants σ e) := by
  rw [replay, Action.ensures_bind]
  refine (ensures_openLog_of_any _ writer medium).mono ?_ ?_
  · rintro log ⟨_, opened⟩ ⟨rfl, hstart, hstream, hwritten⟩
    rw [Action.ensures_bind, ensures_onLog]
    refine (OpenLog.ensures_writeAll_of_stream hstream _ opened).mono ?_ ?_
    · rintro _ ⟨log', after⟩ ⟨hsegment, hstream', hlength⟩
      have hempty : log'.written = 0 → writer.unflushed = [] := fun hnone =>
        List.eq_nil_of_length_eq_zero (by dsimp only at hlength; omega)
      rw [ensures_update]
      refine ⟨h.of_backed rfl (List.suffix_refl _) rfl rfl ⟨hstream', ?_, hempty⟩, rfl, rfl⟩
      rw [hsegment, hstart]
      exact Nat.le_of_eq (h.toNat_head h.queue)
    · intro e s hwarrants
      exact ⟨h.of_needsReset rfl (List.suffix_refl _) hneeds, hwarrants⟩
  · rintro e ⟨_, after⟩ ⟨rfl, hmedium⟩
    exact ⟨h.of_needsReset rfl (List.suffix_refl _) hneeds,
      Medium.warrants_of_not hmedium.isWriteFailure_eq⟩

/-- Once the open log was given up a reset goes on from a part of the queue, or is needed still. -/
theorem Kept.endsIn_reconcile (h : writer.Kept start acknowledged)
    (hneeds : writer.needsReset = true) (given : Option (OpenLog η)) (medium : Medium σ) :
    (reconcile writer).EndsIn ({ writer with log := given }, medium)
      (fun _ s => s.1.Kept start acknowledged ∧ s.1.needsReset = false ∧
        s.1.closed = writer.closed)
      (fun e s => s.1.Kept start acknowledged ∧ Warrants σ e)
      (fun s => s.1.Kept start acknowledged) := by
  have hkept (log : Option (OpenLog η)) :
      ({ writer with log } : Writer η).Kept start acknowledged :=
    h.of_needsReset rfl (List.suffix_refl _) hneeds
  rw [reconcile, Action.endsIn_bind, Action.endsIn_onSecond]
  refine (writer.journal.ends_probe medium).endsIn.mono (fun frontier probed _ => ?_)
    (fun _ _ hmild => ⟨hkept given, Medium.warrants_of_not hmild⟩) (fun _ _ => hkept given)
  rw [Action.endsIn_bind, Frontier.endsIn_next]
  cases frontier.next? with
  | none => exact hkept given
  | some expected =>
      dsimp only
      rw [Action.endsIn_bind, Action.endsIn_ofExcept]
      refine ⟨fun _ _ => ?_, fun e he => ⟨hkept given, ?_⟩⟩
      · rw [Action.endsIn_bind, Action.endsIn_discard, Action.endsIn_onSecond]
        refine (writer.journal.ends_sealAt frontier probed).endsIn.mono (fun _ done _ => ?_)
          (fun _ _ hmedium => ⟨hkept given, Medium.warrants_of_not hmedium.isWriteFailure_eq⟩)
          (fun _ _ => hkept given)
        rw [Action.endsIn_bind, endsIn_update]
        have hrest : ({ writer with
            log := none
            unflushed := writer.unflushed.dropWhile fun entry => entry.sequence < expected } :
            Writer η).Kept start acknowledged :=
          h.of_needsReset rfl (List.dropWhile_suffix _) hneeds
        exact (hrest.ensures_replay hneeds done).endsIn
      · exact Medium.warrants_of_not (isWriteFailure_of_checkFrontier he)

/-- A reset succeeds, or is needed still. -/
theorem Kept.endsIn_reset (h : writer.Kept start acknowledged) (hneeds : writer.needsReset = true)
    (medium : Medium σ) :
    reset.EndsIn (writer, medium)
      (fun _ s => s.1.Kept start acknowledged ∧ s.1.needsReset = false ∧
        s.1.closed = writer.closed)
      (fun e s => s.1.Kept start acknowledged ∧ Warrants σ e)
      (fun s => s.1.Kept start acknowledged) := by
  rw [reset, Action.endsIn_bind, Action.endsIn_get]
  dsimp only
  cases hlog : writer.log with
  | none =>
      have hreconciled := h.endsIn_reconcile hneeds none medium
      rw [← hlog] at hreconciled
      exact hreconciled
  | some log =>
      dsimp only
      rw [Action.endsIn_bind, endsIn_onLog]
      exact (OpenLog.ensures_abandon_of_any log medium).endsIn.mono
        (fun _ given _ => h.endsIn_reconcile hneeds (some given.1) given.2)
        (fun _ _ h => h.elim) (fun _ h => h)

/-- Where no reset is needed nothing is done, else the writer is reset. -/
theorem Kept.endsIn_settle (h : writer.Kept start acknowledged) (medium : Medium σ) :
    settle.EndsIn (writer, medium)
      (fun _ s => s.1.Kept start acknowledged ∧ s.1.needsReset = false ∧
        s.1.closed = writer.closed)
      (fun e s => s.1.Kept start acknowledged ∧ Warrants σ e)
      (fun s => s.1.Kept start acknowledged) := by
  rw [settle, Action.endsIn_bind, Action.endsIn_get]
  dsimp only
  rw [Action.endsIn_ite]
  exact ⟨fun hneeds => h.endsIn_reset hneeds medium,
    fun hsteady => ⟨h, Bool.eq_false_iff.2 hsteady, rfl⟩⟩

/-- The writer is ready to append to the log. -/
structure Poised (start : UInt64) (acknowledged : List Entry) (log : OpenLog η)
    (writer : Writer η) : Prop extends Kept start acknowledged writer, Backed writer log where
  /-- No reset is needed. -/
  steady : writer.needsReset = false
  /-- No new log comes next. -/
  stays : writer.rotateNext = false
  /-- The log is open. -/
  log_eq : writer.log = some log

/-- A new log is opened for the next entry, which goes on with an empty queue. -/
theorem Kept.ensures_openNext (h : writer.Kept start acknowledged)
    (hsteady : writer.needsReset = false) (hrotates : writer.rotateNext = true)
    (given : Option (OpenLog η)) (medium : Medium σ) :
    (openNext writer.next).Ensures ({ writer with log := given }, medium)
      (fun log s => s.1.Poised start acknowledged log)
      (fun e s => s.1.Kept start acknowledged ∧ Warrants σ e) := by
  have hqueue := h.rotating hsteady hrotates
  rw [openNext, Action.ensures_bind]
  refine (ensures_openLog_of_any _ _ medium).mono ?_ ?_
  · rintro log ⟨_, after⟩ ⟨rfl, hstart, hstream, hwritten⟩
    rw [Action.ensures_bind, ensures_update]
    have hbacked :
        ({ writer with log := some log, rotateNext := false } : Writer η).Backed log := by
      refine ⟨hstream, ?_, fun _ => hqueue⟩
      rw [hstart]
      dsimp only
      rw [hqueue]
      exact Nat.le_refl _
    exact ⟨h.of_backed rfl (List.suffix_refl _) rfl rfl hbacked, hbacked, hsteady, rfl, rfl⟩
  · rintro e ⟨_, after⟩ ⟨rfl, hmedium⟩
    exact ⟨h.of_rotateNext rfl hqueue hrotates,
      Medium.warrants_of_not hmedium.isWriteFailure_eq⟩

theorem Kept.ensures_rotate (h : writer.Kept start acknowledged)
    (hsteady : writer.needsReset = false) (hrotates : writer.rotateNext = true)
    (medium : Medium σ) :
    rotate.Ensures (writer, medium) (fun log s => s.1.Poised start acknowledged log)
      (fun e s => s.1.Kept start acknowledged ∧ Warrants σ e) := by
  rw [rotate, Action.ensures_bind, Action.ensures_get]
  dsimp only
  cases hlog : writer.log with
  | none =>
      have hopened := h.ensures_openNext hsteady hrotates none medium
      rw [← hlog] at hopened
      exact hopened
  | some log =>
      dsimp only
      rw [Action.ensures_bind, Action.ensures_discard, ensures_resetAfter, ensures_onLog]
      refine (OpenLog.ensures_commit_of_any _ _ log medium).mono
        (fun _ done _ => h.ensures_openNext hsteady hrotates (some done.1) done.2) ?_
      intro e left hwarrants
      have hqueue := h.rotating hsteady hrotates
      refine ⟨?_, hwarrants⟩
      dsimp only
      split
      · exact h.of_rotateNext rfl hqueue hrotates
      · exact h.of_rotateNext rfl hqueue hrotates

/-- The log for the next entry has a stream. -/
theorem Kept.ensures_logForNext (h : writer.Kept start acknowledged)
    (hopen : writer.closed = false) (hsteady : writer.needsReset = false) (medium : Medium σ) :
    logForNext.Ensures (writer, medium) (fun log s => s.1.Poised start acknowledged log)
      (fun e s => s.1.Kept start acknowledged ∧ Warrants σ e) := by
  rw [logForNext, Action.ensures_bind, Action.ensures_get]
  dsimp only
  cases hrotates : writer.rotateNext with
  | true =>
      cases writer.log with
      | none => exact h.ensures_rotate hsteady hrotates medium
      | some log => exact h.ensures_rotate hsteady hrotates medium
  | false =>
      obtain ⟨log, hlog, hbacked⟩ := h.backed hopen hsteady hrotates
      rw [hlog]
      exact ⟨h, hbacked, hsteady, hrotates, hlog⟩

/-- An entry is appended under the next number, or nothing is acknowledged. -/
theorem Kept.endsIn_append (h : writer.Kept start acknowledged) (entry : Entry)
    (hroom : writer.next.toNat + 1 < UInt64.size) (medium : Medium σ) :
    (append entry).EndsIn (writer, medium)
      (fun q s => q = writer.next ∧ s.1.Kept start (acknowledged ++ [⟨q, entry.payload⟩]))
      (fun e s => s.1.Kept start acknowledged ∧ Warrants σ e)
      (fun s => s.1.Kept start acknowledged) := by
  have hsame {other : Writer η} (hother : other.Kept start acknowledged) :
      other.next = writer.next :=
    UInt64.toNat_inj.1 (hother.next_eq.trans h.next_eq.symm)
  rw [append, Action.endsIn_bind, Action.endsIn_get]
  dsimp only
  rw [Action.endsIn_ite]
  refine ⟨fun _ => ⟨h, Medium.warrants_of_not rfl⟩, fun hopen => ?_⟩
  rw [Action.endsIn_bind]
  refine (h.endsIn_settle medium).mono ?_ (fun _ _ h => h) (fun _ h => h)
  rintro _ ⟨settled, middle⟩ ⟨hsettled, hsteady, hclosed⟩
  rw [Action.endsIn_bind, Action.endsIn_get]
  dsimp only
  rw [Action.endsIn_bind]
  refine (hsettled.ensures_logForNext (hclosed.trans (Bool.eq_false_iff.2 hopen)) hsteady
    middle).endsIn.mono ?_ (fun _ _ h => h) (fun _ h => h)
  rintro log ⟨ready, opened⟩ hpoised
  rw [Action.endsIn_bind, endsIn_resetAfter, endsIn_onLog]
  refine (OpenLog.ensures_write_of_stream hpoised.stream _ opened).endsIn.mono ?_ ?_
    (fun _ h => h)
  · rintro _ ⟨log', after⟩ ⟨hsegment, hstream, hwritten⟩
    have hnext : settled.next = ready.next := (hsame hsettled).trans (hsame hpoised.toKept).symm
    have hne : settled.next + 1 ≠ 0 := Action.add_one_ne_zero (hsame hsettled ▸ hroom)
    rw [Action.endsIn_bind, endsIn_update, Action.endsIn_bind, Action.endsIn_successor, if_neg hne,
      Action.endsIn_bind, endsIn_update]
    have hbegun : log'.written ≠ 0 := by
      rw [Entry.encodedLength_eq] at hwritten
      dsimp only at hwritten
      omega
    refine ⟨hsame hsettled, hpoised.toKept.snoc hnext (hnext ▸ Action.toNat_add_one hne)
      hpoised.stays hstream ?_ hbegun⟩
    rw [hsegment]
    exact hpoised.start_le
  · rintro e ⟨log', after⟩ hwarrants
    exact ⟨hpoised.toKept.of_needsReset rfl (List.suffix_refl _) rfl, hwarrants⟩

/-- Where there is nothing to be flushed the queue is empty. -/
theorem Kept.unflushed_eq_nil (h : writer.Kept start acknowledged) (hopen : writer.closed = false)
    (hsteady : writer.needsReset = false)
    (hidle : ∀ log ∈ writer.log, log.stream.isNone = true ∨ log.written = 0) :
    writer.unflushed = [] := by
  cases hrotates : writer.rotateNext with
  | true => exact h.rotating hsteady hrotates
  | false =>
      obtain ⟨log, hlog, hbacked⟩ := h.backed hopen hsteady hrotates
      rcases hidle log hlog with hnone | hunwritten
      · rw [Option.isNone_iff_eq_none] at hnone
        have hstream := hbacked.stream
        rw [hnone] at hstream
        cases hstream
      · exact hbacked.written hunwritten

/-- What is flushed leaves the queue. -/
theorem Kept.ensures_flushOpen (h : writer.Kept start acknowledged) (hopen : writer.closed = false)
    (hsteady : writer.needsReset = false) (hlog : writer.log = some log)
    (hstream : log.stream.isSome = true) (medium : Medium σ) :
    (flushOpen writer log).Ensures (writer, medium)
      (fun _ s => s.1.Kept start acknowledged ∧ s.1.unflushed = [])
      (fun _ s => s.1.Kept start acknowledged) := by
  rw [flushOpen, Action.ensures_bind, ensures_resetAfter, ensures_onLog]
  refine (OpenLog.ensures_flush_of_stream hstream medium).mono ?_ ?_
  · rintro _ ⟨log', after⟩ ⟨hsegment, hstream', hwritten⟩
    rw [Action.ensures_bind, Action.ensures_get]
    dsimp only
    rw [ensures_update]
    refine ⟨?_, rfl⟩
    dsimp only
    generalize (decide (writer.journal.config.maxLogBytes.toNat ≤ log.written) ||
      !Storage.supportsFlush after.storage) = ended
    cases hends : writer.rotateNext || ended with
    | true => exact h.of_rotateNext rfl rfl rfl
    | false =>
        obtain ⟨log₀, hlog₀, hbacked⟩ := h.backed hopen hsteady (Bool.or_eq_false_iff.1 hends).1
        obtain rfl : log₀ = log := Option.some.inj (hlog₀.symm.trans hlog)
        refine h.of_backed rfl List.nil_suffix rfl rfl ⟨hstream', ?_, fun _ => rfl⟩
        have hstart := hbacked.start_le
        rw [← hsegment] at hstart
        exact Nat.le_trans (Nat.add_le_add_left (Nat.zero_le _) _) hstart
  · rintro e ⟨log', after⟩ -
    exact h.of_needsReset rfl (List.suffix_refl _) rfl

/-- A flush that succeeds leaves no queue. -/
theorem Kept.endsIn_push (h : writer.Kept start acknowledged) (medium : Medium σ) :
    push.EndsIn (writer, medium)
      (fun _ s => s.1.Kept start acknowledged ∧ s.1.unflushed = [])
      (fun _ s => s.1.Kept start acknowledged) (fun s => s.1.Kept start acknowledged) := by
  rw [push, Action.endsIn_bind, Action.endsIn_get]
  dsimp only
  rw [Action.endsIn_ite]
  refine ⟨fun _ => h, fun hopen => ?_⟩
  rw [Action.endsIn_bind]
  refine (h.endsIn_settle medium).mono ?_ (fun _ _ h => h.1) (fun _ h => h)
  rintro _ ⟨settled, middle⟩ ⟨hsettled, hsteady, hclosed⟩
  rw [Action.endsIn_bind, Action.endsIn_get]
  dsimp only
  have hopen' := hclosed.trans (Bool.eq_false_iff.2 hopen)
  cases hlog : settled.log with
  | none =>
      refine ⟨hsettled, hsettled.unflushed_eq_nil hopen' hsteady fun log hsome => ?_⟩
      rw [hlog] at hsome
      cases hsome
  | some log =>
      dsimp only
      rw [Action.endsIn_ite]
      constructor
      · intro hidle
        rw [Bool.or_eq_true, decide_eq_true_eq] at hidle
        refine ⟨hsettled, hsettled.unflushed_eq_nil hopen' hsteady fun other hother => ?_⟩
        obtain rfl : log = other := Option.some.inj (hlog.symm.trans hother)
        exact hidle
      · intro hbusy
        rw [Bool.or_eq_true, not_or, ← Option.not_isSome, Bool.not_eq_true', Bool.not_eq_false]
          at hbusy
        exact (hsettled.ensures_flushOpen hopen' hsteady hlog hbusy.1 middle).endsIn

omit [Storage σ η] in
theorem Kept.ensures_finishAfter (h : writer.Kept start acknowledged) (before : Writer η)
    (errors : List JournalError) (given : Option (OpenLog η)) (medium : Medium σ) :
    (before.finishAfter errors).Ensures ({ writer with log := given }, medium)
      (fun _ s => s.1.Kept start acknowledged) (fun _ s => s.1.Kept start acknowledged) := by
  have hshut : ({ writer with log := given } : Writer η).shut.Kept start acknowledged := h.shut
  refine (ensures_finishAfter_of_any before errors _ medium).mono ?_ ?_ <;>
  · rintro _ s rfl
    exact hshut

theorem Kept.ensures_finishSettled (h : writer.Kept start acknowledged)
    (errors : List JournalError) (medium : Medium σ) :
    (finishSettled errors).Ensures (writer, medium) (fun _ s => s.1.Kept start acknowledged)
      (fun _ s => s.1.Kept start acknowledged) := by
  rw [finishSettled, Action.ensures_bind, Action.ensures_get]
  dsimp only
  cases hlog : writer.log with
  | none =>
      have hfinished := h.ensures_finishAfter writer (errors ++ []) none medium
      rw [← hlog] at hfinished
      exact hfinished
  | some log =>
      dsimp only
      rw [Action.ensures_ite]
      constructor
      · intro _
        rw [Action.ensures_bind, ensures_errorsOf, ensures_onLog]
        exact (OpenLog.ensures_commit_of_any _ _ log medium).mono
          (fun _ s _ => h.ensures_finishAfter writer _ (some s.1) s.2)
          (fun _ s _ => h.ensures_finishAfter writer _ (some s.1) s.2)
      · intro _
        rw [Action.ensures_bind, ensures_onLog]
        exact (OpenLog.ensures_abandon_of_any log medium).mono
          (fun _ s _ => h.ensures_finishAfter writer _ (some s.1) s.2) (fun _ _ h => h.elim)

/-- Closing keeps the writer, whether or not it succeeds. -/
theorem Kept.endsIn_finish (h : writer.Kept start acknowledged) (medium : Medium σ) :
    finish.EndsIn (writer, medium) (fun _ s => s.1.Kept start acknowledged)
      (fun _ s => s.1.Kept start acknowledged) (fun s => s.1.Kept start acknowledged) := by
  rw [finish_eq, Action.endsIn_bind, Action.endsIn_get]
  dsimp only
  rw [Action.endsIn_ite]
  refine ⟨fun _ => h, fun _ => ?_⟩
  rw [Action.endsIn_bind, endsIn_errorsOf]
  exact (h.endsIn_settle medium).mono
    (fun _ s hsettled => (hsettled.1.ensures_finishSettled _ s.2).endsIn)
    (fun _ s hsettled => (hsettled.1.ensures_finishSettled _ s.2).endsIn) (fun _ h => h)

/-! ### Operations -/

omit [Storage σ η] in
/-- A crash changes nothing of what is kept. -/
theorem Kept.endsIn_operation {α : Type} {x : Action JournalError (Writer η × Medium σ) α}
    {Q : α → Writer η × Medium σ → Prop} {E : JournalError → Writer η × Medium σ → Prop}
    (hpoisoned : E .poisoned (writer, medium))
    (hx : x.EndsIn (writer, medium) Q E (fun s => s.1.Kept start acknowledged)) :
    (operation x).EndsIn (writer, medium) Q E (fun s => s.1.Kept start acknowledged) :=
  (Writer.endsIn_operation ..).2 ⟨fun _ => hpoisoned, fun _ => hx.mono (fun _ _ h => h)
    (fun _ _ h => h) fun _ h => h.of_eq rfl rfl rfl rfl rfl rfl⟩

theorem Kept.endsIn_write (h : writer.Kept start acknowledged) (entry : Entry)
    (hroom : writer.next.toNat + 1 < UInt64.size) (medium : Medium σ) :
    (write entry).EndsIn (writer, medium)
      (fun q s => q = writer.next ∧ s.1.Kept start (acknowledged ++ [⟨q, entry.payload⟩]))
      (fun e s => s.1.Kept start acknowledged ∧ Warrants σ e)
      (fun s => s.1.Kept start acknowledged) :=
  Kept.endsIn_operation ⟨h, Medium.warrants_of_not rfl⟩ (h.endsIn_append entry hroom medium)

theorem Kept.endsIn_flush (h : writer.Kept start acknowledged) (medium : Medium σ) :
    flush.EndsIn (writer, medium) (fun _ s => s.1.Kept start acknowledged ∧ s.1.unflushed = [])
      (fun _ s => s.1.Kept start acknowledged) (fun s => s.1.Kept start acknowledged) :=
  Kept.endsIn_operation h (h.endsIn_push medium)

theorem Kept.endsIn_close (h : writer.Kept start acknowledged) (medium : Medium σ) :
    close.EndsIn (writer, medium) (fun _ s => s.1.Kept start acknowledged)
      (fun _ s => s.1.Kept start acknowledged) (fun s => s.1.Kept start acknowledged) :=
  Kept.endsIn_operation h (h.endsIn_finish medium)

/-- A writer that was started at a number, and the entries it has acknowledged since; each operation
is run on a medium in any state. -/
inductive Session (σ : Type) {η : Type} [Storage σ η] (start : UInt64) :
    Writer η → List Entry → Prop where
  /-- It was started. -/
  | started {journal : Journal} {writer : Writer η} {medium after : Medium σ}
      (h : Writer.start journal start medium = .ok writer after) : Session σ start writer []
  /-- A write acknowledged an entry with a number. -/
  | wrote {writer writer' : Writer η} {acknowledged : List Entry} {entry : Entry} {q : UInt64}
      {medium after : Medium σ} (h : Session σ start writer acknowledged)
      (hroom : writer.next.toNat + 1 < UInt64.size)
      (hwrite : write entry (writer, medium) = .ok q (writer', after)) :
      Session σ start writer' (acknowledged ++ [⟨q, entry.payload⟩])
  /-- A write failed or crashed. -/
  | refused {writer writer' : Writer η} {acknowledged : List Entry} {entry : Entry}
      {medium after : Medium σ} {failure : Failure JournalError}
      (h : Session σ start writer acknowledged) (hroom : writer.next.toNat + 1 < UInt64.size)
      (hwrite : write entry (writer, medium) = .error failure (writer', after)) :
      Session σ start writer' acknowledged
  /-- It was flushed. -/
  | flushed {writer : Writer η} {acknowledged : List Entry}
      (h : Session σ start writer acknowledged) (medium : Medium σ) :
      Session σ start (Action.leaves flush (writer, medium)).1 acknowledged
  /-- It was closed. -/
  | ended {writer : Writer η} {acknowledged : List Entry}
      (h : Session σ start writer acknowledged) (medium : Medium σ) :
      Session σ start (Action.leaves close (writer, medium)).1 acknowledged
  /-- The collector beside it went on. -/
  | collected {writer : Writer η} {acknowledged : List Entry}
      (h : Session σ start writer acknowledged) (collector : Option Collector) :
      Session σ start { writer with collector } acknowledged

theorem kept_of_start {journal : Journal} {after : Medium σ}
    (h : Writer.start journal start medium = .ok writer after) : writer.Kept start [] := by
  obtain ⟨_, -, rfl⟩ := exists_snapshot_of_start h
  exact ⟨rfl, rfl, List.nil_suffix, fun _ _ => rfl, fun _ _ hstays => (by cases hstays)⟩

theorem Session.kept (h : Session σ start writer acknowledged) :
    writer.Kept start acknowledged := by
  induction h with
  | started h => exact kept_of_start h
  | @wrote _ _ _ entry _ medium _ _ hroom hwrite ih =>
      exact ((ih.endsIn_write entry hroom medium).of_ok hwrite).2
  | @refused _ _ _ entry medium _ _ _ hroom hwrite ih =>
      exact ((ih.endsIn_write entry hroom medium).mono (fun _ _ h => h) (fun _ _ h => h.1)
        (fun _ h => h)).of_failure hwrite
  | flushed _ medium ih =>
      exact ((ih.endsIn_flush medium).mono (fun _ _ h => h.1) (fun _ _ h => h)
        (fun _ h => h)).leaves
  | ended _ medium ih => exact (ih.endsIn_close medium).leaves
  | collected _ collector ih => exact ih.of_eq rfl rfl rfl rfl rfl rfl

theorem Kept.next_eq_of_kept (h : writer.Kept start acknowledged)
    (h' : writer'.Kept start acknowledged) : writer'.next = writer.next :=
  UInt64.toNat_inj.1 (h'.next_eq.trans h.next_eq.symm)

/-- **What a session keeps.**  The numbers answered are those from the start on, and the next number
is the one behind them; it moves on by one with each write that succeeds, and with nothing else.
The queue is the end of what was acknowledged, and a flush that succeeds empties it.  Unless the
writer is closed, needs a reset or starts a new log with the next write, it has a log open with a
stream, which starts no later than the queue; and a write that fails to append to a log was failed
by the log's stream. -/
theorem Session.invariant (h : Session σ start writer acknowledged) :
    acknowledged.map (fun entry => entry.sequence.toNat) =
      List.range' start.toNat acknowledged.length ∧
    writer.next.toNat = start.toNat + acknowledged.length ∧
    writer.unflushed <:+ acknowledged ∧
    (writer.closed = false → writer.needsReset = false → writer.rotateNext = false →
      ∃ log, writer.log = some log ∧ log.stream.isSome = true ∧
        log.segment.start ≤ writer.unflushed.head?.elim writer.next Entry.sequence) ∧
    (∀ (entry : Entry) (medium : Medium σ), writer.next.toNat + 1 < UInt64.size →
      (write entry).EndsIn (writer, medium)
        (fun q s => q = writer.next ∧ s.1.next.toNat = writer.next.toNat + 1)
        (fun e s => s.1.next = writer.next ∧
          ∀ path source, e = .writeFailure path source → Refuses σ source)
        (fun s => s.1.next = writer.next)) ∧
    (∀ medium : Medium σ, flush.EndsIn (writer, medium)
      (fun _ s => s.1.next = writer.next ∧ s.1.unflushed = [])
      (fun _ s => s.1.next = writer.next) (fun s => s.1.next = writer.next)) ∧
    ∀ medium : Medium σ, close.EndsIn (writer, medium) (fun _ s => s.1.next = writer.next)
      (fun _ s => s.1.next = writer.next) (fun s => s.1.next = writer.next) := by
  have hkept := h.kept
  refine ⟨hkept.numbers, hkept.next_eq, hkept.queue, fun hopen hsteady hstays => ?_,
    fun entry medium hroom => ?_, fun medium => ?_, fun medium => ?_⟩
  · obtain ⟨log, hlog, hbacked⟩ := hkept.backed hopen hsteady hstays
    refine ⟨log, hlog, hbacked.stream, ?_⟩
    have hhead := hkept.toNat_head hkept.queue
    have hstart := hbacked.start_le
    rw [UInt64.le_iff_toNat_le]
    omega
  · refine (hkept.endsIn_write entry hroom medium).mono ?_ ?_ fun _ => hkept.next_eq_of_kept
    · rintro q s ⟨rfl, hkept'⟩
      refine ⟨rfl, ?_⟩
      rw [hkept'.next_eq, hkept.next_eq, List.length_append, List.length_singleton, Nat.add_assoc]
    · rintro e s ⟨hkept', hwarrants⟩
      exact ⟨hkept.next_eq_of_kept hkept', hwarrants⟩
  · exact (hkept.endsIn_flush medium).mono (fun _ _ h => ⟨hkept.next_eq_of_kept h.1, h.2⟩)
      (fun _ _ => hkept.next_eq_of_kept) fun _ => hkept.next_eq_of_kept
  · exact (hkept.endsIn_close medium).mono (fun _ _ => hkept.next_eq_of_kept)
      (fun _ _ => hkept.next_eq_of_kept) fun _ => hkept.next_eq_of_kept

/-- For example, a writer that was given an entry with a number of its own: it is open, and has the
entry in its queue under the number it answered with. -/
theorem invariant_renumbered :
    let journal := Journal.rooted "journal" { gcEnabled := false }
    let medium : Medium Memory := { storage := { publishing := .onFlush } }
    ∃ writer started written after, Writer.start journal 10 medium = .ok writer started ∧
      write ⟨7, [1]⟩ (writer, medium) = .ok 10 (written, after) ∧
      Session Memory 10 written [⟨10, [1]⟩] ∧ written.next.toNat = 11 ∧
      written.unflushed <:+ [⟨10, [1]⟩] ∧
      ∃ log, written.log = some log ∧ log.stream.isSome = true ∧
        log.segment.start ≤ written.unflushed.head?.elim written.next Entry.sequence := by
  intro journal medium
  have hrun : ((Writer.start journal 10).value? medium).map (fun writer =>
      ((write ⟨7, [1]⟩).value? (writer, medium),
        ((write ⟨7, [1]⟩).leaves (writer, medium)).1.closed,
        ((write ⟨7, [1]⟩).leaves (writer, medium)).1.needsReset,
        ((write ⟨7, [1]⟩).leaves (writer, medium)).1.rotateNext)) =
      some (some 10, false, false, false) := by
    decide +kernel
  obtain ⟨writer, hstart, hchecked⟩ := Option.map_eq_some_iff.1 hrun
  simp only [Prod.mk.injEq] at hchecked
  obtain ⟨hwrite, hopen, hsteady, hstays⟩ := hchecked
  have hstarted := Action.eq_ok_leaves hstart
  have hwritten := Action.eq_ok_leaves hwrite
  generalize (write ⟨7, [1]⟩).leaves (writer, medium) = state at hwritten hopen hsteady hstays
  obtain ⟨written, after⟩ := state
  have hroom : writer.next.toNat + 1 < UInt64.size := by
    rw [(kept_of_start hstarted).next_eq]
    decide
  have hsession := (Session.started hstarted).wrote hroom hwritten
  obtain ⟨-, hnext, hqueue, hlog, -⟩ := hsession.invariant
  exact ⟨writer, _, written, after, hstarted, hwritten, hsession, hnext, hqueue,
    hlog hopen hsteady hstays⟩

/-! ### Sessions in memory -/

theorem kind_ne_of_refusal? {stream : Memory.Stream} {error : IoError}
    (h : stream.refusal? = some error) : error.kind ≠ .notConnected := by
  unfold Memory.Stream.refusal? at h
  intro hkind
  cases hphase : stream.phase with
  | live =>
      rw [hphase] at h
      cases h
  | broken =>
      rw [hphase] at h
      cases h
      cases hkind
  | closed =>
      rw [hphase] at h
      cases h
      cases hkind

/-- In memory no stream answers as if there were none. -/
theorem kind_ne_of_refuses {source : IoError} (h : Refuses Memory source) :
    source.kind ≠ .notConnected := by
  obtain ⟨stream, medium, after, ⟨bytes, hwrite⟩ | hclose⟩ := h
  · have hends : (Medium.write bytes).Ensures (stream, medium) (fun _ _ => True)
        (fun source _ => source.kind ≠ .notConnected) := by
      rw [Medium.write, Action.ensures_ite]
      refine ⟨fun _ => trivial, fun _ => ?_⟩
      rw [Medium.ensures_onStream]
      simp only [Storage.write, Memory.Stream.write]
      cases hrefusal : stream.refusal? with
      | some error => exact kind_ne_of_refusal? hrefusal
      | none =>
          cases Fault.takeWrite medium.storage.faults with
          | mk fired faults => cases fired <;> simp [Memory.Stream.fail]
    exact hends.of_error hwrite
  · have hends : (Medium.close : Action IoError (Memory.Stream × Medium Memory) Unit).Ensures
        (stream, medium) (fun _ _ => True) (fun source _ => source.kind ≠ .notConnected) := by
      rw [Medium.close, Action.ensures_bind, Action.ensures_onSecond,
        Medium.ensures_consult_of_any]
      dsimp only
      rw [Action.ensures_ite]
      refine ⟨fun _ hkind => (by cases hkind), fun _ => ?_⟩
      rw [Medium.ensures_onStream]
      simp only [Storage.close, Memory.Stream.close]
      cases stream.phase <;> trivial
    exact hends.of_error hclose

/-- In memory no write fails for want of a stream. -/
theorem Session.kind_ne_of_write {path : String} {source : IoError} {entry : Entry}
    {medium : Medium Memory} {writer : Writer Memory.Stream}
    {state : Writer Memory.Stream × Medium Memory}
    (h : Session Memory start writer acknowledged) (hroom : writer.next.toNat + 1 < UInt64.size)
    (hwrite : write entry (writer, medium) = .error (.error (.writeFailure path source)) state) :
    source.kind ≠ .notConnected :=
  kind_ne_of_refuses (((h.kept.endsIn_write entry hroom medium).of_error hwrite).2 path source rfl)

end Writer

end SegmentedJournal
