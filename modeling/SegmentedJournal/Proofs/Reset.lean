import SegmentedJournal.Proofs.Phases
/-!
# Resets

A damaged writer that is reset seals the current log at the frontier and writes the entries behind
it into a new log, from which it goes on (`Damaged.ensures_reset`).  The frontier never leaves a gap
before the entries in the queue nor reaches past them, since the files end among these, and
no checkpoint reaches past them either; so a reset can only fail as the medium does, and then it can
be tried again (`Account.Unsettled`).
-/

namespace SegmentedJournal

open Memory (Stream)
open Medium (Fired Foiled Keeps Quieter)

namespace Writer

/-! ### The parts of a reset -/

variable {σ η : Type} [Storage σ η]

/-- Entries are written into a new log, and the writer goes on from it. -/
def replay (start : UInt64) (entries : List Entry) :
    Action JournalError (Writer η × Medium σ) Unit := do
  let log ← openLog start
  onLog log (OpenLog.writeAll entries)
  update fun writer => { writer with needsReset := false, rotateNext := false }

/-- What a reset does once the open log was given up. -/
def reconcile (writer : Writer η) : Action JournalError (Writer η × Medium σ) Unit := do
  let frontier ← writer.journal.probe.onSecond
  let expected ← frontier.next
  Action.ofExcept (writer.checkFrontier expected)
  discard (writer.journal.sealAt frontier).onSecond
  let unflushed := writer.unflushed.dropWhile fun entry => entry.sequence < expected
  update fun writer => { writer with log := none, unflushed }
  replay (unflushed.head?.elim writer.next Entry.sequence) unflushed

end Writer

namespace Account

variable {account : Account} {writer writer' : Writer Stream} {log : OpenLog Stream}
  {current : Option Segment} {medium middle : Medium Memory} {a d f m n x : Nat}
  {e : JournalError} {state : Writer Stream × Medium Memory}

theorem Setback.before (h : account.Setback n d writer' middle e state)
    (halike : writer.Alike writer') (hquieter : Quieter medium middle) :
    account.Setback n d writer medium e state :=
  ⟨h.mild, halike.trans h.alike, hquieter.fired h.fired, h.working⟩

theorem Unsettled.before (h : account.Unsettled n d writer' middle e state)
    (halike : writer.Alike writer') (hquieter : Quieter medium middle) :
    account.Unsettled n d writer medium e state :=
  ⟨h.toSetback.before halike hquieter, h.needsReset⟩

/-! ### The frontier and the queue -/

theorem Durable.le_frontier (h : account.Durable medium.storage.files current a m) :
    m ≤ account.frontier a m := by
  have hle := h.le
  unfold frontier
  split
  · exact Nat.le_refl m
  · omega

theorem Durable.frontier_le (h : account.Durable medium.storage.files current a m) (hm : m ≤ n)
    (hreach : account.reach ≤ n) : account.frontier a m ≤ n := by
  have hle := h.le
  unfold frontier
  split <;> omega

/-- A frontier among the entries of the queue is no contradiction. -/
theorem checkFrontier_eq_ok (hqueue : writer.unflushed = account.ledger.entries f n)
    (hnext : writer.next = UInt64.ofNat n) (hn : n < unknownStop.toNat) (hfx : f ≤ x)
    (hxn : x ≤ n) : writer.checkFrontier (UInt64.ofNat x) = .ok () := by
  have hnotAhead : ¬ writer.next < UInt64.ofNat x := by
    rw [hnext]
    exact UInt64.not_lt.2 (ofNat_le_ofNat hxn hn)
  unfold Writer.checkFrontier
  cases hhead : writer.unflushed.head? with
  | none => exact if_neg hnotAhead
  | some first =>
      have hfn : f < n := by
        refine Nat.lt_of_not_le ?_
        intro hle
        rw [hqueue, Ledger.entries_of_le hle] at hhead
        cases hhead
      rw [hqueue, Ledger.entries_cons hfn] at hhead
      cases hhead
      have hnoGap : ¬ UInt64.ofNat x < UInt64.ofNat f :=
        UInt64.not_lt.2 (ofNat_le_ofNat hfx (Nat.lt_of_le_of_lt hxn hn))
      dsimp only
      rw [if_neg hnotAhead]
      exact if_neg hnoGap

/-- The log for the entries of the queue starts with the first of them. -/
theorem start_eq (hnext : writer.next = UInt64.ofNat n) (hxn : x ≤ n) :
    (account.ledger.entries x n).head?.elim writer.next Entry.sequence = UInt64.ofNat x := by
  rcases Nat.eq_or_lt_of_le hxn with rfl | hlt
  · rw [Ledger.entries_self]
    exact hnext
  · rw [Ledger.entries_cons hlt]
    rfl

/-! ### The steps of a reset -/

/-- The entries of the queue are written into a new log, and the writer goes on from it. -/
theorem Stands.ensures_replay (h : account.Stands medium.storage.files none x)
    (hserves : account.Serves n writer medium)
    (hqueue : writer.unflushed = account.ledger.entries x n)
    (hneeds : writer.needsReset = true) (hxn : x ≤ n) (hdx : d ≤ x) :
    (Writer.replay (UInt64.ofNat x) (account.ledger.entries x n)).Ensures (writer, medium)
      (fun _ s => writer.Alike s.1 ∧ Quieter medium s.2 ∧ s.1.rotateNext = false ∧
        (∃ log stream, account.Live n d x x x log stream s.1 s.2) ∧
        s.2.storage.files = Medium.created medium.storage.publishing
          (account.logFrom x).location medium.storage.files)
      (fun e s => account.Unsettled n d writer medium e s) := by
  rw [Writer.replay, Action.ensures_bind]
  refine (h.ensures_openLog hserves.journal_eq).mono ?_ ?_
  · rintro log ⟨_, middle⟩ ⟨rfl, hsegment, hwritten, ⟨stream, hstream, hfeeds⟩, hquieter, hfiles⟩
    rw [Action.ensures_bind, Writer.ensures_onLog]
    -- If the new stream breaks, the files end somewhere in the entries that it was to get.
    refine (hfeeds.ensures_appendAll hstream hxn).mono ?_ ?_
    · rintro _ ⟨log', after⟩ ⟨hkeeps, hsegment', hwritten', stream', hstream', hfeeds'⟩
      rw [Writer.ensures_update]
      refine ⟨⟨rfl, rfl, rfl, rfl, rfl⟩, hquieter.trans hkeeps.toQuieter, rfl,
        ⟨log', stream', rfl, hsegment'.trans hsegment, hstream', rfl, hfeeds', hqueue, ?_,
          Nat.le_refl x, hxn, .inl rfl, fun hrotate => (by cases hrotate), hdx⟩,
        hkeeps.files_eq.trans hfiles⟩
      intro hzero
      dsimp only at hwritten' hzero
      omega
    · rintro e ⟨log', after⟩ ⟨hmild, stream', hstream', hbroken⟩
      obtain ⟨current, a, m, hdurable, hxm, hmn⟩ := hbroken.durable
      refine ⟨⟨hmild, ⟨rfl, rfl, rfl, rfl, rfl⟩, hquieter.fired hbroken.fired,
        .damaged x current a m ⟨hneeds, ?_, hdurable, hqueue, hxm, hmn, hdx⟩⟩, hneeds⟩
      rintro _ ⟨⟩ _ hsome
      rw [hstream'] at hsome
      cases hsome
      exact hbroken.broken
  · rintro e ⟨_, after⟩ ⟨rfl, hmild, hfoiled⟩
    rw [← hfoiled.files_eq] at h
    exact ⟨⟨hmild, ⟨rfl, rfl, rfl, rfl, rfl⟩, hfoiled.toFired,
      .damaged x none x x ⟨hneeds, fun _ hnone => (by cases hnone), durable_none h, hqueue,
        Nat.le_refl x, hxn, hdx⟩⟩, hneeds⟩

/-- The current log is sealed at the frontier, and the entries of the queue behind it are written
into a new log. -/
theorem Damaged.ensures_reconcile {log : Option (OpenLog Stream)}
    (h : account.Damaged n d f current a m { writer with log } medium)
    (hserves : account.Serves n writer medium) :
    writer.reconcile.Ensures ({ writer with log }, medium)
      (fun _ s => writer.Alike s.1 ∧ Quieter medium s.2 ∧ s.1.rotateNext = false ∧
        (∃ log stream, account.Live n d (account.frontier a m) (account.frontier a m)
          (account.frontier a m) log stream s.1 s.2) ∧
        s.2.storage.files = Medium.created medium.storage.publishing
          (account.logFrom (account.frontier a m)).location
          (account.sealed medium.storage.files current a m))
      (fun e s => account.Unsettled n d writer medium e s) := by
  have hm : m < unknownStop.toNat := Nat.lt_of_le_of_lt h.le_right hserves.bound
  have hfx : f ≤ account.frontier a m := Nat.le_trans h.le_left h.durable.le_frontier
  have hxn := h.durable.frontier_le h.le_right hserves.reach_le
  have hx := Nat.lt_of_le_of_lt hxn hserves.bound
  have hsize : unknownStop.toNat ≤ UInt64.size := by decide
  have halike : writer.Alike { writer with log } := ⟨rfl, rfl, rfl, rfl, rfl⟩
  -- A step that fails before the sealing leaves the writer as damaged as it was.
  have hsetback (e : JournalError) (after : Medium Memory) (hmild : e.isFatal = false)
      (hfoiled : Foiled medium after) :
      account.Unsettled n d writer medium e ({ writer with log }, after) :=
    ⟨⟨hmild, halike, hfoiled.toFired, .damaged f current a m ⟨h.needsReset, h.adrift,
      hfoiled.files_eq ▸ h.durable, h.queue, h.le_left, h.le_right, h.promised⟩⟩, h.needsReset⟩
  have hprobe := h.durable.ensures_probe hm hserves.reach_bound hserves.tame.honest
  rw [← hserves.journal_eq] at hprobe
  rw [Writer.reconcile, Action.ensures_bind, Action.ensures_onSecond]
  refine hprobe.mono ?_ (fun e after hfailed => hsetback e after hfailed.1 hfailed.2)
  rintro frontier probed ⟨hincomplete, hlast, hpersisted, hkeeps⟩
  have hdurable : account.Durable probed.storage.files current a m := hkeeps.files_eq ▸ h.durable
  have hqueue : writer.unflushed = account.ledger.entries f n := h.queue
  have hbehind : writer.unflushed.dropWhile (fun entry =>
      entry.sequence < UInt64.ofNat (account.frontier a m)) =
        account.ledger.entries (account.frontier a m) n := by
    rw [hqueue]
    exact Ledger.dropWhile_entries hfx hxn (Nat.lt_of_lt_of_le hserves.bound hsize)
  rw [Action.ensures_bind, Frontier.ensures_next hpersisted (Nat.lt_of_lt_of_le hx hsize),
    Action.ensures_bind, checkFrontier_eq_ok hqueue hserves.next_eq hserves.bound hfx hxn,
    Action.ensures_ofExcept]
  refine ⟨?_, fun _ herror => (by cases herror)⟩
  intro _ _
  have hseal := hdurable.ensures_sealAt hm hincomplete hlast
  rw [← hserves.journal_eq] at hseal
  rw [Action.ensures_bind, Action.ensures_discard, Action.ensures_onSecond]
  refine hseal.mono ?_ (fun e after hfailed => hsetback e after hfailed.1 (hkeeps.foiled hfailed.2))
  rintro _ done ⟨hquieter, hfiles⟩
  have hstands := hdurable.stands_frontier hm hserves.reach_bound
  rw [← hfiles] at hstands
  have hquieter := hkeeps.toQuieter.trans hquieter
  rw [hbehind]
  dsimp only
  rw [start_eq hserves.next_eq hxn, Action.ensures_bind, Writer.ensures_update]
  have halike : writer.Alike { writer with
      log := none, unflushed := account.ledger.entries (account.frontier a m) n } :=
    ⟨rfl, rfl, rfl, rfl, rfl⟩
  refine (hstands.ensures_replay (hserves.of_alike halike hquieter) rfl h.needsReset hxn
    (Nat.le_trans h.promised hfx)).mono ?_ ?_
  · rintro _ ⟨writer', after⟩ ⟨halike', hquieter', hrotate, hlive, hfiles'⟩
    refine ⟨halike.trans halike', hquieter.trans hquieter', hrotate, hlive, ?_⟩
    rw [hfiles', hfiles, hquieter.publishing_eq, hkeeps.files_eq]
  · rintro e ⟨writer', after⟩ hfailed
    exact hfailed.before halike hquieter

/-- **Reset**: the current log is sealed at the frontier, and the writer goes on from a new log
with the entries behind it. -/
theorem Damaged.ensures_reset (h : account.Damaged n d f current a m writer medium)
    (hserves : account.Serves n writer medium) :
    Writer.reset.Ensures (writer, medium)
      (fun _ s => writer.Alike s.1 ∧ Quieter medium s.2 ∧ s.1.rotateNext = false ∧
        (∃ log stream, account.Live n d (account.frontier a m) (account.frontier a m)
          (account.frontier a m) log stream s.1 s.2) ∧
        s.2.storage.files = Medium.created medium.storage.publishing
          (account.logFrom (account.frontier a m)).location
          (account.sealed medium.storage.files current a m))
      (fun e s => account.Unsettled n d writer medium e s) := by
  rw [Writer.reset, Action.ensures_bind, Action.ensures_get]
  dsimp only
  cases hlog : writer.log with
  | none =>
      have hsame : ({ writer with log := none } : Writer Stream) = writer := by rw [← hlog]
      have h' : account.Damaged n d f current a m { writer with log := none } medium := by
        rwa [hsame]
      have hreconcile := h'.ensures_reconcile hserves
      rw [hsame] at hreconcile
      exact hreconcile
  | some log =>
      dsimp only
      rw [Action.ensures_bind, Writer.ensures_onLog]
      refine (OpenLog.ensures_abandon (h.adrift log hlog) medium).mono ?_ (fun _ _ h => h.elim)
      rintro _ ⟨_, after⟩ ⟨rfl, hkeeps, -⟩
      have h' : account.Damaged n d f current a m
          { writer with log := some { log with stream := none } } after := by
        refine ⟨h.needsReset, ?_, hkeeps.files_eq ▸ h.durable, h.queue, h.le_left, h.le_right,
          h.promised⟩
        rintro _ ⟨⟩ stream hstream
        cases hstream
      refine (h'.ensures_reconcile (hserves.of_alike (.refl writer) hkeeps.toQuieter)).mono ?_ ?_
      · rintro _ ⟨writer', last⟩ ⟨halike, hquieter, hrotate, hlive, hfiles⟩
        refine ⟨halike, hkeeps.toQuieter.trans hquieter, hrotate, hlive, ?_⟩
        rw [hfiles, hkeeps.publishing_eq, hkeeps.files_eq]
      · rintro e ⟨writer', last⟩ hfailed
        exact hfailed.before (.refl writer) hkeeps.toQuieter

end Account

end SegmentedJournal
