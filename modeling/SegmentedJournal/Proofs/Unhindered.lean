import SegmentedJournal.Proofs.Adopting
import SegmentedJournal.Proofs.Storing
/-!
# Writers that nothing hinders

Where nothing is armed, what a writer leaves is known to the octet.  A history of writes and flushes
is cut into runs (`Cut`), a run ending at the flush that finds it large enough; the open log holds
the run that goes on, or the last one that ended (`OpenLog.Holds`, `Writer.Phase`), and completing
it stores that run behind the others (`OpenLog.Holds.ensures_commit`).  One operation keeps the
writer and its cut together (`Writer.Tracks.ensures_write`, `Writer.Tracks.ensures_flush`), and
closing leaves every run in a log of its own (`Writer.Tracks.ensures_close`).
-/

namespace SegmentedJournal

open Account (ofNat_le_ofNat ofNat_le_unknownStop ofNat_ne_unknownStop toNat_ofNat_of_bound
  toNat_unknownStop)
open Memory (Stream)
open Medium (Keeps Quieter)

/-! ### Open logs, to the octet -/

namespace OpenLog

/-- The log has the ledger's entries from `a` up to `n`, and was begun over the files `base`.  Where
flushes publish, its file has the frames that its stream does not hold back; else there is no file
yet. -/
structure Holds (journal : Journal) (ledger : Ledger) (base : PathMap Bytes) (a n : Nat)
    (log : OpenLog Stream) (medium : Medium Memory) : Prop where
  /-- It is the incomplete log that starts at `a`. -/
  segment_eq : log.segment = journal.log (UInt64.ofNat a) unknownStop
  /-- It has a stream to its file that can be used, and the file was not there before. -/
  fed : ∃ stream, log.stream = some stream ∧ stream.path = log.location ∧ stream.phase = .live ∧
    (medium.storage.publishing = .onFlush → ∃ published,
      medium.storage.files = base.insert log.location published ∧
        published ++ stream.pending = ledger.frames a n) ∧
    (medium.storage.publishing = .onClose →
      medium.storage.files = base ∧ stream.pending = ledger.frames a n)
  /-- It knows how many octets it was given. -/
  written_eq : log.written = (ledger.frames a n).length
  /-- Its entries are in order. -/
  le : a ≤ n
  /-- Its file was not there before. -/
  vacant : base.get? log.location = none

variable {journal : Journal} {ledger : Ledger} {base : PathMap Bytes} {log : OpenLog Stream}
  {medium : Medium Memory} {a n : Nat}

namespace Holds

/-- An entry is given to the stream. -/
theorem ensures_write (h : log.Holds journal ledger base a n medium) (hquiet : medium.armed = 0) :
    (write (ledger.entry n)).Ensures (log, medium)
      (fun _ t => Quieter medium t.2 ∧ t.1.Holds journal ledger base a (n + 1) t.2)
      (fun _ _ => False) := by
  obtain ⟨stream, hstream, hpath, hlive, hflushed, hheld⟩ := h.fed
  rw [write, Action.ensures_bind, Action.ensures_get]
  dsimp only
  rw [hstream]
  dsimp only
  rw [Action.ensures_bind, ensures_onStream]
  refine (Medium.ensures_write_pending _ hlive hquiet).mono ?_ (fun _ _ h => h)
  rintro _ ⟨_, after⟩ ⟨rfl, hkeeps⟩
  rw [Action.ensures_modify]
  refine ⟨hkeeps.toQuieter, h.segment_eq, ⟨_, rfl, hpath, hlive, ?_, ?_⟩, ?_,
    Nat.le_succ_of_le h.le, h.vacant⟩
  · rw [hkeeps.publishing_eq, hkeeps.files_eq]
    intro hpublishing
    obtain ⟨published, hfiles, hframes⟩ := hflushed hpublishing
    refine ⟨published, hfiles, ?_⟩
    rw [Ledger.frames_succ h.le, ← hframes, List.append_assoc]
  · rw [hkeeps.publishing_eq, hkeeps.files_eq]
    intro hpublishing
    obtain ⟨hfiles, hpending⟩ := hheld hpublishing
    exact ⟨hfiles, by rw [hpending, Ledger.frames_succ h.le]⟩
  · dsimp only
    rw [h.written_eq, Ledger.frames_succ h.le, List.length_append, Entry.length_encode]

/-- Its stream publishes what it held back, or holds it back still. -/
theorem ensures_flush (h : log.Holds journal ledger base a n medium) (hquiet : medium.armed = 0) :
    (flush : Action JournalError (OpenLog Stream × Medium Memory) Unit).Ensures (log, medium)
      (fun _ t => Quieter medium t.2 ∧ t.1.Holds journal ledger base a n t.2)
      (fun _ _ => False) := by
  obtain ⟨stream, hstream, hpath, hlive, hflushed, hheld⟩ := h.fed
  rw [flush, Action.ensures_bind, Action.ensures_get]
  dsimp only
  rw [hstream]
  dsimp only
  rw [ensures_onStream]
  refine (Medium.ensures_flush_published hlive hquiet).mono ?_ (fun _ _ h => h)
  rintro _ ⟨stream', after⟩ hafter
  cases hpublishing : medium.storage.publishing with
  | onClose =>
      rw [hpublishing] at hafter
      obtain ⟨rfl, rfl⟩ := Prod.mk.inj hafter
      rw [← hstream]
      exact ⟨.refl _, h⟩
  | onFlush =>
      rw [hpublishing] at hafter
      obtain ⟨rfl, hquieter, hfiles⟩ := hafter
      obtain ⟨published, hbefore, hframes⟩ := hflushed hpublishing
      refine ⟨hquieter, h.segment_eq, ⟨_, rfl, hpath, hlive, fun _ => ⟨ledger.frames a n, ?_,
        List.append_nil _⟩, fun hclose => ?_⟩, h.written_eq, h.le, h.vacant⟩
      · have hget : medium.storage.files.get? stream.path = some published := by
          rw [hbefore, hpath, PathMap.get?_insert, if_pos rfl]
        rw [hfiles, Memory.files_publish_of_some hget, hframes, hbefore, hpath]
        refine PathMap.ext fun path => ?_
        simp only [PathMap.get?_insert, location]
        split <;> rfl
      · rw [hquieter.publishing_eq, hpublishing] at hclose
        cases hclose

/-- Once its stream is closed its file has every entry. -/
theorem closedFiles_eq (h : log.Holds journal ledger base a n medium) :
    log.closedFiles medium.storage = base.insert log.location (ledger.frames a n) := by
  obtain ⟨stream, hstream, hpath, hlive, hflushed, hheld⟩ := h.fed
  rw [closedFiles_of_some hstream, Stream.closedFiles, hlive]
  dsimp only
  rw [hpath]
  cases hpublishing : medium.storage.publishing with
  | onClose =>
      obtain ⟨hfiles, hpending⟩ := hheld hpublishing
      rw [hpending, ← hfiles, decide_eq_true rfl,
        Memory.files_publish_of_none (hfiles ▸ h.vacant)]
  | onFlush =>
      obtain ⟨published, hfiles, hframes⟩ := hflushed hpublishing
      have hget : medium.storage.files.get? log.location = some published := by
        rw [hfiles, PathMap.get?_insert, if_pos rfl]
      rw [Memory.files_publish_of_some hget, hframes, hfiles]
      refine PathMap.ext fun path => ?_
      simp only [PathMap.get?_insert]
      split <;> rfl

/-- **Committing** the log stores its entries as a run, and leaves nothing else. -/
theorem ensures_commit (h : log.Holds journal ledger base a n medium) (han : a < n)
    (hn : n < unknownStop.toNat) (hquiet : medium.armed = 0) :
    (commit journal (UInt64.ofNat n)).Ensures (log, medium)
      (fun _ t => Quieter medium t.2 ∧
        t.2.storage.files = journal.store base (ledger.entries a n))
      (fun _ _ => False) := by
  have ha := Nat.lt_trans han hn
  have hstart : log.segment.start = UInt64.ofNat a := by rw [h.segment_eq]; rfl
  have hlt : log.segment.start < UInt64.ofNat n := by
    rw [hstart, UInt64.lt_iff_toNat_lt, toNat_ofNat_of_bound ha, toNat_ofNat_of_bound hn]
    exact han
  have hne : log.location ≠ (journal.log log.segment.start (UInt64.ofNat n)).location := by
    intro heq
    rw [location, h.segment_eq] at heq
    have hsame := (journal.places_log (ofNat_le_unknownStop ha) (UInt64.le_refl _)).eq_log heq
    exact ofNat_ne_unknownStop hn (congrArg Segment.stop hsame).symm
  refine (ensures_commit_moved ?_ hlt hne).mono ?_ fun _ _ h => h.2.1.elim hquiet
  · rw [(Medium.faults_of_armed hquiet).2]
    exact fun _ hnone => (by cases hnone)
  · rintro _ ⟨_, after⟩ ⟨-, hquieter, -, hfiles⟩
    have hget : (log.closedFiles medium.storage).get? log.location =
        some (ledger.frames a n) := by
      rw [h.closedFiles_eq, PathMap.get?_insert, if_pos rfl]
    refine ⟨hquieter, ?_⟩
    rw [hfiles, PathMap.moved_of_some hget, h.closedFiles_eq, PathMap.erase_insert h.vacant,
      hstart, Journal.store, Ledger.logHolding_entries journal han]
    rfl

end Holds

/-- A log is begun over files that it has no file among. -/
theorem ensures_create_holds (journal : Journal) (ledger : Ledger) (n : Nat)
    (hvacant : medium.storage.files.get? (journal.log (UInt64.ofNat n) unknownStop).location =
      none) (hquiet : medium.armed = 0) :
    (create journal (UInt64.ofNat n) :
        Action JournalError (Medium Memory) (OpenLog Stream)).Ensures medium
      (fun log after => Quieter medium after ∧
        log.Holds journal ledger medium.storage.files n n after)
      (fun _ _ => False) := by
  rw [create, Action.ensures_bind, Action.ensures_mapError]
  refine (Medium.ensures_create _ medium).mono ?_ fun _ _ hfoiled => hfoiled.toFired.elim hquiet
  rintro _ after ⟨rfl, hquieter, hfiles⟩
  refine ⟨hquieter, rfl, ⟨_, rfl, rfl, rfl, fun hpublishing => ⟨[], ?_, ?_⟩,
    fun hpublishing => ⟨?_, ?_⟩⟩, ?_, Nat.le_refl n, hvacant⟩
  · rw [hfiles, ← hquieter.publishing_eq, hpublishing]
    rfl
  · rw [Ledger.frames_self]
    rfl
  · rw [hfiles, ← hquieter.publishing_eq, hpublishing]
    rfl
  · exact Ledger.frames_self.symm
  · rw [Ledger.frames_self]
    rfl

end OpenLog

/-! ### Writers, move by move -/

namespace Writer

variable {journal : Journal} {ledger : Ledger} {base files : PathMap Bytes} {log : OpenLog Stream}
  {publishing : Publishing} {cut : Cut} {entry : Entry} {writer writer' : Writer Stream}
  {medium after : Medium Memory} {a b n s : Nat}

/-- A writer goes on with number `n` of the journal: it is open, needs no reset and has not crashed,
and nothing is armed. -/
structure AtWork (journal : Journal) (publishing : Publishing) (n : Nat) (writer : Writer Stream)
    (medium : Medium Memory) : Prop where
  /-- It writes to the journal. -/
  journal_eq : writer.journal = journal
  /-- It goes on with the number. -/
  next_eq : writer.next = UInt64.ofNat n
  /-- No reset is needed. -/
  steady : writer.needsReset = false
  /-- It is not closed. -/
  opened : writer.closed = false
  /-- It has not crashed. -/
  sound : writer.poisoned = false
  /-- Neither has its collector. -/
  collecting : ∀ collector ∈ writer.collector, collector.crashed = false
  /-- Nothing is armed. -/
  quiet : medium.armed = 0
  /-- Streams publish so. -/
  publishing_eq : medium.storage.publishing = publishing

theorem AtWork.of_alike (h : AtWork journal publishing n writer medium)
    (halike : writer.Alike writer') (hsteady : writer'.needsReset = false)
    (hquieter : Quieter medium after) : AtWork journal publishing n writer' after :=
  ⟨halike.journal_eq.trans h.journal_eq, halike.next_eq.trans h.next_eq, hsteady,
    halike.closed_eq.trans h.opened, halike.poisoned_eq.trans h.sound,
    halike.collector_eq ▸ h.collecting, hquieter.quiet h.quiet,
    hquieter.publishing_eq.trans h.publishing_eq⟩

/-- Completing the writer's log at `n`, if it has one, leaves these files. -/
structure Leaves (journal : Journal) (n : Nat) (files : PathMap Bytes) (writer : Writer Stream)
    (medium : Medium Memory) : Prop where
  /-- Without a log they are there. -/
  bare : writer.log = none → medium.storage.files = files
  /-- Else committing the log leaves them. -/
  commit : ∀ log ∈ writer.log, (OpenLog.commit journal (UInt64.ofNat n)).Ensures (log, medium)
    (fun _ t => Quieter medium t.2 ∧ t.2.storage.files = files) (fun _ _ => False)

/-! ### Parts of operations -/

namespace AtWork

/-- A new log is opened over the files that are there. -/
theorem ensures_openNext (h : AtWork journal publishing n writer medium) (ledger : Ledger)
    (given : Option (OpenLog Stream)) (hwithin : journal.Within medium.storage.files n)
    (hn : n < unknownStop.toNat) :
    (openNext writer.next).Ensures ({ writer with log := given }, medium)
      (fun log t => t.1 = { writer with log := some log, rotateNext := false } ∧
        Quieter medium t.2 ∧ log.Holds journal ledger medium.storage.files n n t.2)
      (fun _ _ => False) := by
  rw [openNext, Action.ensures_bind, openLog, Action.ensures_bind, Action.ensures_get]
  dsimp only
  rw [Action.ensures_bind, ensures_update, Action.ensures_bind, Action.ensures_onSecond,
    h.journal_eq, h.next_eq]
  refine (OpenLog.ensures_create_holds journal ledger n
    (hwithin.absent (ofNat_le_unknownStop hn) (UInt64.le_refl _) hn) h.quiet).mono ?_
    (fun _ _ h => h)
  rintro log after ⟨hquieter, hholds⟩
  rw [Action.ensures_bind, ensures_update, Action.ensures_pure, Action.ensures_bind,
    ensures_update, Action.ensures_pure]
  exact ⟨rfl, hquieter, hholds⟩

/-- The log is completed, and a new one opened over what that leaves. -/
theorem ensures_rotate (h : AtWork journal publishing n writer medium) (ledger : Ledger)
    (hleaves : Leaves journal n files writer medium) (hwithin : journal.Within files n)
    (hn : n < unknownStop.toNat) :
    rotate.Ensures (writer, medium)
      (fun log t => t.1 = { writer with log := some log, rotateNext := false } ∧
        Quieter medium t.2 ∧ log.Holds journal ledger files n n t.2)
      (fun _ _ => False) := by
  rw [rotate, Action.ensures_bind, Action.ensures_get]
  dsimp only
  cases hlog : writer.log with
  | none =>
      obtain rfl := hleaves.bare hlog
      have hopened := h.ensures_openNext ledger none hwithin hn
      rw [← hlog] at hopened
      exact hopened
  | some log =>
      have hcommit := hleaves.commit log hlog
      rw [← h.journal_eq, ← h.next_eq] at hcommit
      dsimp only
      rw [Action.ensures_bind, Action.ensures_discard, ensures_resetAfter, ensures_onLog]
      refine hcommit.mono ?_ (fun _ _ h => h.elim)
      rintro _ ⟨given, after⟩ ⟨hquieter, rfl⟩
      have hafter := h.of_alike (.refl writer) h.steady hquieter
      refine (hafter.ensures_openNext ledger (some given) hwithin hn).mono ?_ (fun _ _ h => h)
      rintro log t ⟨hwriter, hquieter', hholds⟩
      exact ⟨hwriter, hquieter.trans hquieter', hholds⟩

/-- The open log is flushed, and the next write starts another if this one is large enough. -/
theorem ensures_flushOpen (h : AtWork journal publishing n writer medium)
    (hholds : log.Holds journal ledger files a n medium) (han : a < n) :
    (flushOpen writer log).Ensures (writer, medium)
      (fun _ t => ∃ log', t.1 = { writer with
          log := some log', unflushed := []
          rotateNext := writer.rotateNext ||
            publishing.endsRun journal.config.maxLogBytes.toNat (ledger.entries a n) } ∧
        Quieter medium t.2 ∧ log'.Holds journal ledger files a n t.2)
      (fun _ _ => False) := by
  rw [flushOpen, Action.ensures_bind, ensures_resetAfter, ensures_onLog]
  refine (hholds.ensures_flush h.quiet).mono ?_ (fun _ _ h => h.elim)
  rintro _ ⟨log', after⟩ ⟨hquieter, hholds'⟩
  rw [Action.ensures_bind, Action.ensures_get]
  dsimp only
  rw [ensures_update]
  refine ⟨log', ?_, hquieter, hholds'⟩
  have hends : (decide (writer.journal.config.maxLogBytes.toNat ≤ log.written) ||
      !Storage.supportsFlush after.storage) =
        publishing.endsRun journal.config.maxLogBytes.toNat (ledger.entries a n) := by
    rw [h.journal_eq, hholds.written_eq, Ledger.frames, Entry.length_encodeAll,
      show Storage.supportsFlush after.storage = decide (publishing = .onFlush) by
        rw [← h.publishing_eq, ← hquieter.publishing_eq]; rfl]
    cases publishing with
    | onFlush => simp [Publishing.endsRun]
    | onClose => simp [Publishing.endsRun, Ledger.entries_cons han]
  rw [hends]

/-- Closing the writer completes its log. -/
theorem ensures_finish (h : AtWork journal publishing n writer medium)
    (hleaves : Leaves journal n files writer medium) :
    finish.Ensures (writer, medium)
      (fun _ t => Quieter medium t.2 ∧ t.2.storage.files = files) (fun _ _ => False) := by
  rw [ensures_finish_of_steady h.opened h.steady, finishSettled, Action.ensures_bind,
    Action.ensures_get]
  dsimp only
  cases hlog : writer.log with
  | none =>
      exact (ensures_finishAfter [] h.collecting _ medium _ _).2 ⟨.refl medium, hleaves.bare hlog⟩
  | some log =>
      dsimp only
      rw [if_pos List.isEmpty_nil, Action.ensures_bind, ensures_errorsOf, ensures_onLog,
        h.journal_eq, h.next_eq]
      exact (hleaves.commit log hlog).mono
        (fun _ t hR => (ensures_finishAfter [] h.collecting _ t.2 _ _).2 hR) (fun _ _ h => h.elim)

end AtWork

/-! ### What the writer's log has -/

/-- What a writer has open, of a history that is cut into runs. -/
inductive Phase (journal : Journal) (ledger : Ledger) (base : PathMap Bytes) (b n : Nat)
    (cut : Cut) (writer : Writer Stream) (medium : Medium Memory) : Prop where
  /-- Nothing has been written.  There may be a log that was taken over, which has no stream. -/
  | resting (hbn : b = n) (hruns : cut.runs = [])
      (hstreams : ∀ log ∈ writer.log, log.stream = none) (hrotates : writer.rotateNext = true)
      (hleaves : Leaves journal n base writer medium)
  /-- The log has the entries since the last run ended. -/
  | writing {log : OpenLog Stream} (hlog : writer.log = some log)
      (hstays : writer.rotateNext = false) (hbn : b < n)
      (hholds : log.Holds journal ledger (journal.stored base cut.runs) b n medium)
  /-- The log has the last run that ended, and there is nothing since. -/
  | ended {log : OpenLog Stream} {runs : List (List Entry)} {x : Nat} (hlog : writer.log = some log)
      (hrotates : writer.rotateNext = true) (hbn : b = n) (hxn : x < n)
      (hruns : cut.runs = runs ++ [ledger.entries x n])
      (hholds : log.Holds journal ledger (journal.stored base runs) x n medium)

/-- A writer and the cut of its history, since the files were `base`. -/
structure Tracks (journal : Journal) (ledger : Ledger) (base : PathMap Bytes)
    (publishing : Publishing) (s b n : Nat) (cut : Cut) (writer : Writer Stream)
    (medium : Medium Memory) : Prop where
  /-- The writer goes on behind the history. -/
  working : AtWork journal publishing n writer medium
  /-- The history is of the ledger's entries from `s` on. -/
  tiled : cut.Tiled ledger s b n
  /-- What the writer has open. -/
  phase : Phase journal ledger base b n cut writer medium
  /-- The files ended where the history starts. -/
  within : journal.Within base s
  /-- The next log can be named. -/
  bound : n < unknownStop.toNat

namespace Tracks

/-- The writer's log is the last run. -/
theorem leaves (h : Tracks journal ledger base publishing s b n cut writer medium) :
    Leaves journal n (journal.stored base cut.closed) writer medium := by
  cases h.phase with
  | resting hbn hruns _ _ hleaves =>
      subst hbn
      rw [h.tiled.closed_of_eq, hruns]
      exact hleaves
  | writing hlog _ hbn hholds =>
      rw [h.tiled.closed_of_lt hbn, Journal.stored_snoc]
      refine ⟨fun hnone => (by rw [hlog] at hnone; cases hnone), fun log hsome => ?_⟩
      cases hlog.symm.trans hsome
      exact hholds.ensures_commit hbn h.bound h.working.quiet
  | ended hlog _ hbn hxn hruns hholds =>
      subst hbn
      rw [h.tiled.closed_of_eq, hruns, Journal.stored_snoc]
      refine ⟨fun hnone => (by rw [hlog] at hnone; cases hnone), fun log hsome => ?_⟩
      cases hlog.symm.trans hsome
      exact hholds.ensures_commit hxn h.bound h.working.quiet

theorem within_closed (h : Tracks journal ledger base publishing s b n cut writer medium) :
    journal.Within (journal.stored base cut.closed) n :=
  h.tiled.tiles_closed.within_stored h.within h.bound

/-- The log for the next entry has the entries since the last run ended. -/
theorem ensures_logForNext
    (h : Tracks journal ledger base publishing s b n cut writer medium) :
    logForNext.Ensures (writer, medium)
      (fun log t => t.1 = { writer with log := some log, rotateNext := false } ∧
        Quieter medium t.2 ∧ log.Holds journal ledger (journal.stored base cut.runs) b n t.2)
      (fun _ _ => False) := by
  have hrotate (hbn : b = n) : rotate.Ensures (writer, medium)
      (fun log t => t.1 = { writer with log := some log, rotateNext := false } ∧
        Quieter medium t.2 ∧ log.Holds journal ledger (journal.stored base cut.runs) b n t.2)
      (fun _ _ => False) := by
    subst hbn
    rw [← h.tiled.closed_of_eq]
    exact h.working.ensures_rotate ledger h.leaves h.within_closed h.bound
  rw [logForNext, Action.ensures_bind, Action.ensures_get]
  dsimp only
  cases h.phase with
  | resting hbn _ _ hrotates _ =>
      cases writer.log with
      | none => exact hrotate hbn
      | some log =>
          dsimp only
          rw [if_pos hrotates]
          exact hrotate hbn
  | writing hlog hstays _ hholds =>
      rw [hlog]
      dsimp only
      rw [hstays, if_neg Bool.false_ne_true]
      refine ⟨?_, .refl medium, hholds⟩
      rw [← hlog, ← hstays]
  | ended hlog hrotates hbn _ _ _ =>
      rw [hlog]
      dsimp only
      rw [if_pos hrotates]
      exact hrotate hbn

/-! ### Operations -/

/-- **Write**: the entry gets the next number, and the open log has it.  If the number behind it can
still be one of a log's name, the writer is tracked on. -/
theorem ensures_write (h : Tracks journal ledger base publishing s b n cut writer medium)
    (ends : List Entry → Bool) (hpayload : entry.payload = ledger n) :
    (write entry).Ensures (writer, medium)
      (fun q t => q = UInt64.ofNat n ∧ (n + 1 < unknownStop.toNat →
        Tracks journal ledger base publishing s b (n + 1) (cut.step ends (.write entry)) t.1 t.2))
      (fun _ _ => False) := by
  refine ensures_operation _ ?_ h.working.sound
  rw [append, Action.ensures_bind, Action.ensures_get]
  dsimp only
  rw [h.working.opened, if_neg Bool.false_ne_true, Action.ensures_bind,
    ensures_settle_of_steady h.working.steady, Action.ensures_bind, Action.ensures_get]
  dsimp only
  rw [Action.ensures_bind]
  refine h.ensures_logForNext.mono ?_ (fun _ _ h => h)
  rintro log ⟨_, opened⟩ ⟨rfl, hquieter, hholds⟩
  have hentry : { entry with sequence := writer.next } = ledger.entry n := by
    rw [h.working.next_eq, Ledger.entry, ← hpayload]
  have hroom : (UInt64.ofNat n).toNat + 1 < UInt64.size := by
    have hbound := h.bound
    rw [toNat_unknownStop] at hbound
    rw [toNat_ofNat_of_bound h.bound, show UInt64.size = 18446744073709551616 from rfl]
    omega
  rw [Action.ensures_bind, ensures_resetAfter, ensures_onLog, hentry]
  refine (hholds.ensures_write (hquieter.quiet h.working.quiet)).mono ?_ (fun _ _ h => h.elim)
  rintro _ ⟨log', after⟩ ⟨hquieter', hholds'⟩
  rw [Action.ensures_bind, ensures_update, Action.ensures_bind, h.working.next_eq,
    Action.ensures_successor hroom, Action.ensures_bind, ensures_update, Action.ensures_pure,
    Action.ofNat_add_one]
  have hquieter := hquieter.trans hquieter'
  refine ⟨rfl, fun hbound => ⟨⟨h.working.journal_eq, rfl, h.working.steady, h.working.opened,
    h.working.sound, h.working.collecting, hquieter.quiet h.working.quiet,
    hquieter.publishing_eq.trans h.working.publishing_eq⟩, h.tiled.step_write hpayload,
    .writing rfl rfl (Nat.lt_succ_of_le h.tiled.le) hholds', h.within, hbound⟩⟩

/-- A flush leaves a writer alone that has nothing to flush. -/
theorem ensures_push_of_resting
    (h : AtWork journal publishing n writer medium)
    (hstreams : ∀ log ∈ writer.log, log.stream = none) :
    push.Ensures (writer, medium) (fun _ t => t = (writer, medium)) (fun _ _ => False) := by
  rw [push, Action.ensures_bind, Action.ensures_get]
  dsimp only
  rw [h.opened, if_neg Bool.false_ne_true, Action.ensures_bind,
    ensures_settle_of_steady h.steady, Action.ensures_bind, Action.ensures_get]
  dsimp only
  cases hlog : writer.log with
  | none => rfl
  | some log =>
      dsimp only
      rw [hstreams log hlog]
      rfl

/-- A flush of a log that was written to. -/
theorem ensures_push_of_holds {x : Nat} (h : AtWork journal publishing n writer medium)
    (hlog : writer.log = some log) (hxn : x < n)
    (hholds : log.Holds journal ledger files x n medium) :
    push.Ensures (writer, medium)
      (fun _ t => AtWork journal publishing n t.1 t.2 ∧
        t.1.rotateNext = (writer.rotateNext ||
          publishing.endsRun journal.config.maxLogBytes.toNat (ledger.entries x n)) ∧
        ∃ log', t.1.log = some log' ∧ log'.Holds journal ledger files x n t.2)
      (fun _ _ => False) := by
  obtain ⟨stream, hstream, -⟩ := hholds.fed
  have hwritten : log.written ≠ 0 := by
    rw [hholds.written_eq, Ledger.frames_cons hxn, List.length_append, Entry.length_encode,
      Entry.encodedLength_eq]
    omega
  rw [push, Action.ensures_bind, Action.ensures_get]
  dsimp only
  rw [h.opened, if_neg Bool.false_ne_true, Action.ensures_bind,
    ensures_settle_of_steady h.steady, Action.ensures_bind, Action.ensures_get]
  dsimp only
  rw [hlog]
  dsimp only
  rw [hstream, Option.isNone_some, Bool.false_or, if_neg (by simpa using hwritten)]
  refine (h.ensures_flushOpen hholds hxn).mono ?_ (fun _ _ h => h)
  rintro _ ⟨_, after⟩ ⟨log', rfl, hquieter, hholds'⟩
  exact ⟨h.of_alike ⟨rfl, rfl, rfl, rfl, rfl⟩ h.steady hquieter, rfl, log', rfl, hholds'⟩

/-- **Flush**: the run ends where the reference ends it. -/
theorem ensures_flush (h : Tracks journal ledger base publishing s b n cut writer medium)
    (hpos : 0 < journal.config.maxLogBytes.toNat) :
    flush.Ensures (writer, medium)
      (fun _ t => ∃ b', Tracks journal ledger base publishing s b' n
        (cut.step (publishing.endsRun journal.config.maxLogBytes.toNat) .flush) t.1 t.2)
      (fun _ _ => False) := by
  refine ensures_operation _ ?_ h.working.sound
  have hnothing (hrest : cut.rest = []) :
      cut.step (publishing.endsRun journal.config.maxLogBytes.toNat) .flush = cut := by
    have hends : publishing.endsRun journal.config.maxLogBytes.toNat [] = false := by
      cases publishing with
      | onFlush => exact decide_eq_false (Nat.not_le.2 hpos)
      | onClose => rfl
    rw [Cut.step, hrest, hends, if_neg Bool.false_ne_true]
  cases h.phase with
  | resting hbn _ hstreams _ _ =>
      subst hbn
      rw [hnothing (h.tiled.rest_eq.trans Ledger.entries_self)]
      refine (ensures_push_of_resting h.working hstreams).mono ?_ (fun _ _ h => h)
      rintro _ _ rfl
      exact ⟨_, h⟩
  | writing hlog hstays hbn hholds =>
      refine (ensures_push_of_holds h.working hlog hbn hholds).mono ?_ (fun _ _ h => h)
      rintro _ ⟨writer', after⟩ ⟨hworking, hrotates, log', hlog', hholds'⟩
      rw [hstays, Bool.false_or, ← h.tiled.rest_eq] at hrotates
      cases hends : publishing.endsRun journal.config.maxLogBytes.toNat cut.rest with
      | true =>
          refine ⟨n, hworking, h.tiled.step_flush_of_ends hbn hends,
            .ended hlog' (hrotates.trans hends) rfl hbn ?_ hholds', h.within, h.bound⟩
          rw [Cut.step, if_pos hends, h.tiled.rest_eq]
      | false =>
          rw [Cut.step, hends, if_neg Bool.false_ne_true]
          exact ⟨b, hworking, h.tiled, .writing hlog' (hrotates.trans hends) hbn hholds',
            h.within, h.bound⟩
  | ended hlog hrotates hbn hxn hruns hholds =>
      subst hbn
      rw [hnothing (h.tiled.rest_eq.trans Ledger.entries_self)]
      refine (ensures_push_of_holds h.working hlog hxn hholds).mono ?_ (fun _ _ h => h)
      rintro _ ⟨writer', after⟩ ⟨hworking, hrotates', log', hlog', hholds'⟩
      rw [hrotates, Bool.true_or] at hrotates'
      exact ⟨_, hworking, h.tiled, .ended hlog' hrotates' rfl hxn hruns hholds', h.within, h.bound⟩

/-- **Close**: every run is stored, and nothing else. -/
theorem ensures_close (h : Tracks journal ledger base publishing s b n cut writer medium) :
    close.Ensures (writer, medium)
      (fun _ t => t.2.armed = 0 ∧ t.2.storage.files = journal.stored base cut.closed)
      (fun _ _ => False) := by
  refine ensures_operation _ ?_ h.working.sound
  refine (h.working.ensures_finish h.leaves).mono ?_ (fun _ _ h => h)
  rintro _ t ⟨hquieter, hfiles⟩
  exact ⟨hquieter.quiet h.working.quiet, hfiles⟩

end Tracks

end Writer

end SegmentedJournal
