import SegmentedJournal.Proofs.Intact
import SegmentedJournal.Proofs.Operations
/-!
# Reconciliation

What a reset makes of a log that was cut off anywhere.  A writer is interrupted
(`Writer.Interrupted`) if it needs a reset, and the current log of its journal holds the frames of
the entries from `a` on up to some octet, not before those of the entries that were flushed.  With
`k` the number of whole frames there, the reset seals the log behind them, and the writer goes on
from a new one with exactly the entries behind (`Writer.Interrupted.reconciles`).

The next write, flush or close makes this reset first, and goes on as on the writer that was reset
(`Writer.Settles.write_eq`, `Writer.Settles.flush_eq`, `Writer.Settles.close_eq`).
-/

namespace SegmentedJournal

open Memory (Stream)
open Medium (Fired)

/-! ### Whole frames -/

/-- Entries whose frames fit are among the whole ones. -/
theorem le_wholeFrames {entries : List Entry} {i size : Nat} (hi : i ≤ entries.length)
    (h : (Entry.encodeAll (entries.take i)).length ≤ size) : i ≤ wholeFrames entries size := by
  induction entries generalizing i size with
  | nil => exact hi
  | cons entry entries ih =>
      cases i with
      | zero => exact Nat.zero_le _
      | succ i =>
          rw [List.take_succ_cons, Entry.encodeAll_cons, List.length_append,
            Entry.length_encode] at h
          unfold wholeFrames
          rw [if_pos (by omega)]
          exact Nat.succ_le_succ (ih (Nat.le_of_succ_le_succ hi) (by omega))

theorem wholeFrames_zero (entries : List Entry) : wholeFrames entries 0 = 0 := by
  cases entries with
  | nil => rfl
  | cons entry entries =>
      have hlength := entry.encodedLength_eq
      exact if_neg (by omega)

namespace Writer

variable {writer settled : Writer Stream} {medium after : Medium Memory}

/-! ### Operations on a writer that needs a reset -/

/-- The writer is open, and its reset succeeds. -/
structure Settles (writer : Writer Stream) (medium : Medium Memory) (settled : Writer Stream)
    (after : Medium Memory) : Prop where
  /-- The reset succeeds. -/
  settle_eq : settle (writer, medium) = .ok () (settled, after)
  /-- The writer needs none then. -/
  steady : settled.needsReset = false
  /-- It is the same writer. -/
  alike : writer.Alike settled
  /-- It is open. -/
  opened : writer.closed = false
  /-- It has not crashed. -/
  sane : writer.poisoned = false

theorem errorsOf_eq_nil {x : Action JournalError (Writer Stream × Medium Memory) Unit}
    {state state' : Writer Stream × Medium Memory} (h : x state = .ok () state') :
    errorsOf x state = .ok [] state' := by
  have hattempt : (x.attempt : Action JournalError _ _) state = .ok (.ok ()) state' := by
    unfold Action.attempt
    rw [h]
  unfold errorsOf
  rw [Action.bind_of_ok hattempt]
  rfl

namespace Settles

variable {α : Type}

theorem bind_eq (h : Settles writer medium settled after)
    (f : Unit → Action JournalError (Writer Stream × Medium Memory) α) :
    (settle >>= f) (writer, medium) = (settle >>= f) (settled, after) := by
  rw [Action.bind_of_ok h.settle_eq, Action.bind_of_ok (settle_of_steady h.steady)]

theorem operation_eq {x : Action JournalError (Writer Stream × Medium Memory) α}
    (h : Settles writer medium settled after) (hx : x (writer, medium) = x (settled, after)) :
    operation x (writer, medium) = operation x (settled, after) := by
  unfold operation
  dsimp only
  rw [h.alike.poisoned_eq, h.sane, if_neg Bool.false_ne_true, if_neg Bool.false_ne_true, hx]

/-- A write makes the reset first, and goes on as on the writer that was reset. -/
theorem write_eq (h : Settles writer medium settled after) (entry : Entry) :
    write entry (writer, medium) = write entry (settled, after) := by
  refine h.operation_eq ?_
  unfold append
  rw [Action.get_bind_apply, Action.get_bind_apply]
  dsimp only
  rw [h.alike.closed_eq, h.opened, if_neg Bool.false_ne_true]
  exact h.bind_eq _

/-- So does a flush. -/
theorem flush_eq (h : Settles writer medium settled after) :
    flush (writer, medium) = flush (settled, after) := by
  refine h.operation_eq ?_
  unfold push
  rw [Action.get_bind_apply, Action.get_bind_apply]
  dsimp only
  rw [h.alike.closed_eq, h.opened, if_neg Bool.false_ne_true]
  exact h.bind_eq _

/-- So does a close. -/
theorem close_eq (h : Settles writer medium settled after) :
    close (writer, medium) = close (settled, after) := by
  refine h.operation_eq ?_
  unfold finish
  rw [Action.get_bind_apply, Action.get_bind_apply]
  dsimp only
  rw [h.alike.closed_eq, h.opened, if_neg Bool.false_ne_true]
  rw [Action.bind_of_ok (errorsOf_eq_nil h.settle_eq),
    Action.bind_of_ok (errorsOf_eq_nil (settle_of_steady h.steady))]

end Settles

/-! ### Logs that were cut off -/

/-- The files once the current log was sealed behind its `k` whole entries, or removed if it has
none, and the next one was begun there. -/
def reconciled (journal : Journal) (publishing : Publishing) (files : PathMap Bytes)
    (current : Option Segment) (a k : Nat) : PathMap Bytes :=
  let ended :=
    match current with
    | none => files
    | some log =>
      if 0 < k then
        (files.erase log.location).insert
          (journal.log (UInt64.ofNat a) (UInt64.ofNat (a + k))).location
          ((files.get? log.location).getD [])
      else files.erase log.location
  Medium.created publishing (journal.log (UInt64.ofNat (a + k)) unknownStop).location ended

theorem reconciled_eq (account : Account) (publishing : Publishing) (files : PathMap Bytes)
    (current : Option Segment) (a k : Nat) :
    reconciled account.journal publishing files current a k =
      Medium.created publishing (account.logFrom (a + k)).location
        (account.sealed files current a (a + k)) := by
  unfold reconciled Account.sealed
  cases current with
  | none => rfl
  | some log =>
      dsimp only
      by_cases hk : 0 < k
      · rw [if_pos hk, if_pos (by omega)]
        rfl
      · rw [if_neg hk, if_neg (by omega)]
        rfl

/-- The writer needs a reset, its queue has the entries from `f` on, and the current log of its
journal, which starts at `a`, holds `data`: their frames from there on, cut off anywhere behind the
entries that were flushed. -/
structure Interrupted (ledger : Ledger) (a f n : Nat) (current : Option Segment) (data : Bytes)
    (writer : Writer Stream) (medium : Medium Memory) : Prop where
  /-- The writer needs a reset. -/
  needsReset : writer.needsReset = true
  /-- It is open. -/
  opened : writer.closed = false
  /-- It has not crashed. -/
  sane : writer.poisoned = false
  /-- Whatever stream it has cannot be used, as with any writer in good standing that needs a reset
  (`Account.Standing.adrift`). -/
  adrift : ∀ log ∈ writer.log, log.Adrift
  /-- It goes on with number `n`. -/
  next_eq : writer.next = UInt64.ofNat n
  /-- A log can start at the number. -/
  bound : n < unknownStop.toNat
  /-- The queue has the entries from `f` on. -/
  queue : writer.unflushed = ledger.entries f n
  /-- They were written to this log or to none. -/
  le_left : a ≤ f
  /-- They come before the next entry. -/
  le_right : f ≤ n
  /-- There are no checkpoints, and the complete logs are contiguous and end at `a`. -/
  complete : ∃ complete,
    writer.journal.snapshotOf medium.storage.files = .ok ⟨[], complete, current⟩ ∧
      Snapshot.areContiguous complete = true ∧ (endOf complete).toNat = a
  /-- The current log starts there and holds the data. -/
  holds : ∀ log ∈ current, log.start.toNat = a ∧
    medium.storage.files.get? log.location = some data
  /-- Without a current log there are none. -/
  absent : current = none → data = []
  /-- The data are frames, cut off anywhere. -/
  cut : data <+: ledger.frames a n
  /-- What was flushed is among them. -/
  reaches : (ledger.frames a f).length ≤ data.length

namespace Interrupted

variable {ledger : Ledger} {a f n : Nat} {current : Option Segment} {data : Bytes}

/-- The whole frames are those of what was flushed and of the first of the queue. -/
theorem bounds (h : Interrupted ledger a f n current data writer medium) :
    f ≤ a + wholeFrames (ledger.entries a n) data.length ∧
      a + wholeFrames (ledger.entries a n) data.length ≤ n := by
  have hle := wholeFrames_le (ledger.entries a n) data.length
  have hleft := h.le_left
  have hright := h.le_right
  rw [Ledger.length_entries] at hle
  refine ⟨?_, by omega⟩
  obtain ⟨i, rfl⟩ : ∃ i, f = a + i := ⟨f - a, by omega⟩
  refine Nat.add_le_add_left (le_wholeFrames ?_ ?_) a
  · rw [Ledger.length_entries]
    omega
  · rw [Ledger.take_entries hright]
    exact h.reaches

/-- Up to its whole frames the journal is intact. -/
theorem intact (h : Interrupted ledger a f n current data writer medium) (hfits : ledger.Fits) :
    ∃ complete, (endOf complete).toNat = a ∧
      writer.journal.Intact ledger a medium.storage.files complete current
        (a + wholeFrames (ledger.entries a n) data.length) := by
  obtain ⟨complete, hsnapshot, hcontiguous, hend⟩ := h.complete
  have hlists := Journal.lists_of_snapshotOf_eq hsnapshot
  have hchain := chain_of_areContiguous hcontiguous fun log hlog =>
    ((hlists.mem_complete log).1 hlog).1.places.bounds.1
  refine ⟨complete, hend, hsnapshot, hcontiguous, ?_, ?_, ?_⟩
  · intro log hlog htrusted
    have hle := hchain.stop_le hlog
    omega
  · intro hnone
    rw [h.absent hnone, List.length_nil, wholeFrames_zero, hend]
    rfl
  · -- Wherever the data are cut, they are whole frames and a torn one.
    intro log hlog
    obtain ⟨hstart, hget⟩ := h.holds log hlog
    obtain ⟨tail, htail, hdata⟩ := exists_torn_of_prefix
      (fun entry hentry => Ledger.fits_of_mem hfits hentry) h.cut
    refine ⟨UInt64.toNat_inj.1 (hstart.trans hend.symm), by omega, tail, htail, ?_⟩
    rw [Ledger.take_entries h.bounds.2] at hdata
    rw [hget, hstart]
    exact congrArg some hdata

/-- **Reconciliation**: unless a failure fires, the reset that the next operation makes succeeds.
With `k` the number of whole frames in the current log, the log is completed behind them with its
octets unchanged, or removed if there are none; a new log starts there; the queue has exactly the
entries behind, and the new stream holds exactly their frames; and the next number is unchanged. -/
theorem reconciles (h : Interrupted ledger a f n current data writer medium)
    (hfits : ledger.Fits) (htame : medium.Tame) :
    let k := wholeFrames (ledger.entries a n) data.length
    f ≤ a + k ∧ a + k ≤ n ∧
    ((∃ settled after, settle (writer, medium) = .ok () (settled, after) ∧
        after.storage.files = reconciled writer.journal medium.storage.publishing
          medium.storage.files current a k ∧
        (∃ log stream, settled.log = some log ∧ log.stream = some stream ∧
          log.segment = writer.journal.log (UInt64.ofNat (a + k)) unknownStop ∧
          stream.path = log.segment.location ∧ stream.phase = .live ∧
          stream.pending = ledger.frames (a + k) n) ∧
        settled.unflushed = ledger.entries (a + k) n ∧ settled.next = writer.next ∧
        settled.needsReset = false ∧
        (∀ entry, write entry (writer, medium) = write entry (settled, after)) ∧
        flush (writer, medium) = flush (settled, after) ∧
        close (writer, medium) = close (settled, after)) ∨
      ∃ e state, settle (writer, medium) = .error (.error e) state ∧ Fired medium state.2) := by
  intro k
  obtain ⟨complete, hend, hintact⟩ := h.intact hfits
  have hdurable := hintact.durable hfits (Nat.le_refl _)
  rw [hend] at hdurable
  have hserves : (writer.journal.account ledger hfits (a + k) a).Serves n writer medium :=
    ⟨rfl, h.next_eq, h.bound, Nat.zero_le n, htame⟩
  have hdamaged : (writer.journal.account ledger hfits (a + k) a).Damaged n f f current a (a + k)
      writer medium :=
    ⟨h.needsReset, h.adrift, hdurable, h.queue, h.bounds.1, h.bounds.2, Nat.le_refl f⟩
  have hsettle : settle (writer, medium) = reset (writer, medium) :=
    settle_of_needsReset h.needsReset
  refine ⟨h.bounds.1, h.bounds.2, ?_⟩
  rcases (hdamaged.ensures_reset hserves).ok_or_error with
    ⟨_, ⟨settled, after⟩, hreset, halike, hquieter, -, ⟨log, stream, hlive⟩, hfiles⟩ |
    ⟨e, state, hreset, hfailed⟩
  · rw [Account.frontier_of_reach_eq_zero rfl (Nat.le_add_right a k)] at hlive hfiles
    have hsettles : Settles writer medium settled after :=
      ⟨hsettle.trans hreset, hlive.steady, halike, h.opened, h.sane⟩
    refine .inl ⟨settled, after, hsettles.settle_eq, ?_, ⟨log, stream, hlive.log_eq,
      hlive.stream_eq, hlive.segment_eq, ?_, hlive.feeds.live, hlive.feeds.pending_eq⟩, hlive.queue,
      halike.next_eq, hlive.steady, hsettles.write_eq, hsettles.flush_eq, hsettles.close_eq⟩
    · exact hfiles.trans (reconciled_eq (writer.journal.account ledger hfits (a + k) a) ..).symm
    · rw [hlive.feeds.path_eq, hlive.segment_eq]
  · exact .inr ⟨e, state, hsettle.trans hreset, hfailed.fired⟩

/-- For example, of two entries the first was flushed, and the second is cut off in its middle. -/
theorem reconciles_half :
    let journal := Journal.rooted "journal" {}
    let ledger : Ledger := fun i => [UInt8.ofNat i]
    let torn := (ledger.entry 1).encode.take ((ledger.entry 1).encode.length / 2)
    let log := journal.log 0 unknownStop
    let files := PathMap.empty.insert log.location (ledger.frames 0 1 ++ torn)
    let medium : Medium Memory := { storage := { publishing := .onFlush, files } }
    let stream : Stream := { path := log.location, phase := .broken }
    let writer : Writer Stream :=
      { journal, next := 2, unflushed := ledger.entries 1 2, needsReset := true
        log := some { segment := log, stream := some stream, written := 34 } }
    ∃ settled after, settle (writer, medium) = .ok () (settled, after) ∧
      settled.unflushed = ledger.entries 1 2 ∧
      after.storage.files = reconciled journal .onFlush files (some log) 0 1 := by
  intro journal ledger torn log files medium stream writer
  have hfits : ledger.Fits := fun i => (by decide : 1 ≤ Frame.maxPayload)
  have hintact := journal.intact_cut ledger 0 1 (Frame.torn_half (hfits 1))
  have hinterrupted : Interrupted ledger 0 1 2 (some log) (ledger.frames 0 1 ++ torn) writer
      medium := by
    refine ⟨rfl, rfl, rfl, ?_, rfl, by decide, rfl, by decide, by decide,
      ⟨[], hintact.snapshot_eq, rfl, rfl⟩, ?_, fun hnone => (by cases hnone), ?_, ?_⟩
    · rintro _ ⟨⟩ _ ⟨⟩ hlive
      cases hlive
    · rintro _ ⟨⟩
      exact ⟨rfl, by rw [PathMap.get?_insert, if_pos rfl]⟩
    · rw [Ledger.frames_succ (Nat.zero_le 1)]
      exact (List.prefix_append_right_inj _).2 (List.take_prefix _ _)
    · rw [List.length_append]
      exact Nat.le_add_right _ _
  have hwhole : wholeFrames (ledger.entries 0 2) (ledger.frames 0 1 ++ torn).length = 1 := by
    decide
  rcases hinterrupted.reconciles hfits (Medium.tame_of_armed rfl) with ⟨-, -,
    ⟨settled, after, hsettle, hfiles, -, hqueue, -⟩ | ⟨e, state, -, hfired⟩⟩
  · rw [hwhole] at hfiles hqueue
    exact ⟨settled, after, hsettle, hqueue, hfiles⟩
  · exact (hfired.elim rfl).elim

end Interrupted

end Writer

end SegmentedJournal
