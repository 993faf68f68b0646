import SegmentedJournal.Proofs.Codec
import SegmentedJournal.Proofs.Handing
/-!
# Where entries come from

What a replay returns can be relied on whatever is on the medium: logs may overlap, be misnamed,
have frames in any order and with any numbers, and end in anything; and the reads may go on behind
errors.  An entry that is returned carries the number expected, and was read, frame by frame, off
the file of a log whose name covers that number (`Segment.Holds`).

The invariant is about where the replay stands (`Replay.Grounded`): the log at hand is one of the
snapshot's, it starts no later than the number expected, and its reader has come through frames of
the file (`SegmentReader.Along`).  Each read keeps it, however it ends
(`Replay.Grounded.answered_read`), and so does a run of reads (`Replay.Answers.grounded`).  The
number expected is below the stop of a log whenever it moves on, and names bound their stops, so
that counting never overflows.
-/

namespace SegmentedJournal

variable {files : PathMap Bytes} {n : UInt64} {entry : Entry}

/-- Reading the log's file from its front on, one frame after the other, comes to the entry. -/
def Segment.Holds (files : PathMap Bytes) (log : Segment) (entry : Entry) : Prop :=
  ∃ before rest, files.get? log.location = some (Entry.encodeAll (before ++ [entry]) ++ rest) ∧
    ∀ e ∈ before ++ [entry], e.Fits

/-! ### Readers -/

namespace SegmentReader

variable {reader behind : SegmentReader}

/-- The reader has come through frames of its segment's file, and has the rest of it to read. -/
def Along (files : PathMap Bytes) (reader : SegmentReader) : Prop :=
  ∃ before, files.get? reader.segment.location = some (Entry.encodeAll before ++ reader.rest) ∧
    ∀ e ∈ before, e.Fits

/-- What is read is the frame at the front. -/
theorem rest_of_read (h : reader.read = .ok (some (entry, behind))) :
    entry.Fits ∧ reader.rest = entry.encode ++ behind.rest := by
  unfold read at h
  split at h
  · cases h
  · split at h
    · next hdecode =>
      cases h
      obtain ⟨hencode, hfits, -⟩ := Frame.encode_of_decode hdecode
      exact ⟨hfits, by rw [hencode, List.take_append_drop]⟩
    · cases h

theorem Along.read (h : reader.Along files) (hread : reader.read = .ok (some (entry, behind))) :
    reader.segment.Holds files entry ∧ behind.Along files := by
  obtain ⟨before, hget, hfits⟩ := h
  obtain ⟨hentry, hrest⟩ := rest_of_read hread
  have hfile : files.get? reader.segment.location =
      some (Entry.encodeAll (before ++ [entry]) ++ behind.rest) := by
    rw [hget, hrest]
    simp
  have hall : ∀ e ∈ before ++ [entry], e.Fits := by
    intro e he
    rcases List.mem_append.1 he with he | he
    · exact hfits e he
    · rwa [List.mem_singleton.1 he]
  exact ⟨⟨before, behind.rest, hfile, hall⟩,
    before ++ [entry], by rwa [segment_of_read hread], hall⟩

/-- A search stays in the file, and what it finds the file holds. -/
theorem Along.seek (h : reader.Along files) (n : UInt64) :
    (reader.seek n).2.segment = reader.segment ∧ (reader.seek n).2.Along files ∧
      ∀ entry, (reader.seek n).1 = .ok (some entry) → reader.segment.Holds files entry := by
  fun_induction SegmentReader.seek n reader with
  | case1 reader found next hread hbelow ih =>
      obtain ⟨hsegment, halong, hholds⟩ := ih (h.read hread).2
      rw [segment_of_read hread] at hsegment hholds
      exact ⟨hsegment, halong, hholds⟩
  | case2 reader found next hread hreached =>
      obtain ⟨hholds, halong⟩ := h.read hread
      refine ⟨segment_of_read hread, halong, ?_⟩
      rintro entry ⟨⟩
      exact hholds
  | case3 reader hread => exact ⟨rfl, h, fun _ hnone => (by cases hnone)⟩
  | case4 reader error hread => exact ⟨rfl, h, fun _ herror => (by cases herror)⟩

end SegmentReader

namespace Replay

variable {logs pending : List Segment} {reader : SegmentReader} {replay : Replay}
  {medium : Medium Memory}

/-! ### One read -/

/-- The logs still to come are among these, and so is the log at hand, which starts no later than
the number expected and is read along its file. -/
structure Grounded (files : PathMap Bytes) (logs : List Segment) (replay : Replay) : Prop where
  /-- The logs to come are among these. -/
  pending : ∀ log ∈ replay.pending, log ∈ logs
  /-- So is the log at hand. -/
  current : ∀ reader ∈ replay.current,
    reader.segment ∈ logs ∧ reader.segment.start ≤ replay.next ∧ reader.Along files

/-- One of the logs covers the entry's number and holds the entry. -/
def Sourced (files : PathMap Bytes) (logs : List Segment) (entry : Entry) : Prop :=
  ∃ log ∈ logs, log.covers entry.sequence = true ∧ log.Holds files entry

/-- What a read answers where `n` is expected: an entry of that number, and the next one is
expected; or nothing or an error, and it is expected still.  It does not crash. -/
def Answered (files : PathMap Bytes) (logs : List Segment) (n : UInt64) :
    EStateM.Result (Failure JournalError) (Replay × Medium Memory) (Option Entry) → Prop
  | .ok (some entry) (replay, _) => Grounded files logs replay ∧ Sourced files logs entry ∧
      entry.sequence = n ∧ replay.next.toNat = n.toNat + 1
  | .ok none (replay, _) => Grounded files logs replay ∧ replay.next = n
  | .error (.error _) (replay, _) => Grounded files logs replay ∧ replay.next = n
  | .error (.crash _) _ => False

theorem grounded_of_pending (h : ∀ log ∈ pending, log ∈ logs) :
    Grounded files logs { pending, next := n } :=
  ⟨h, fun _ hnone => by cases hnone⟩

/-- What a log yields is what the search in it has found. -/
theorem seek_of_yield (n : UInt64) (reader : SegmentReader) :
    match yield n reader with
    | .entry entry behind => reader.seek n = (.ok (some entry), behind)
    | .refused _ behind => (reader.seek n).2 = behind
    | _ => True := by
  unfold yield
  by_cases hstopped : reader.segment.stop ≤ n
  · rw [if_pos hstopped]
    trivial
  · rw [if_neg hstopped]
    rcases reader.seek n with ⟨(error | _ | entry), behind⟩
    · dsimp only
      by_cases htorn : (error.isDecodeError && behind.segment.isIncomplete) = true
      · rw [if_pos htorn]
        trivial
      · rw [if_neg htorn]
    · trivial
    · dsimp only
      by_cases habove : n < entry.sequence
      · rw [if_pos habove]
      · rw [if_neg habove]

/-- An entry above the number expected is refused, and has been read. -/
theorem yield_of_above {behind : SegmentReader} (hread : reader.read = .ok (some (entry, behind)))
    (hstop : n < reader.segment.stop) (habove : n < entry.sequence) :
    yield n reader = .refused (.entryMissing n entry.sequence) behind := by
  rw [yield, if_neg (UInt64.not_le.2 hstop),
    SegmentReader.seek_of_reached hread (UInt64.le_of_lt habove)]
  exact if_pos habove

/-- A log at hand is read along, and what it yields is numbered as expected and below its stop. -/
theorem answered_readOn (hlogs : ∀ log ∈ logs, log.stop ≤ unknownStop)
    (hpending : ∀ log ∈ pending, log ∈ logs) (hmem : reader.segment ∈ logs)
    (hstart : reader.segment.start ≤ n) (halong : reader.Along files)
    (hrest : Answered files logs n (readPending n pending medium)) :
    Answered files logs n (readOn n reader pending medium) := by
  obtain ⟨hsegment, halong', hholds⟩ := halong.seek n
  have hgrounded (x : UInt64) (hx : n ≤ x) :
      Grounded files logs { pending, current := some (reader.seek n).2, next := x } := by
    refine ⟨hpending, ?_⟩
    rintro behind ⟨⟩
    exact ⟨hsegment ▸ hmem, hsegment ▸ UInt64.le_trans hstart hx, halong'⟩
  have hseek := seek_of_yield n reader
  unfold readOn
  cases hyield : yield n reader with
  | entry entry behind =>
      rw [hyield] at hseek
      obtain ⟨rfl, hlt, -⟩ := of_yield hyield
      -- The stop bounds the number, so that there is a next one.
      have hbound := UInt64.lt_iff_toNat_lt.1 (UInt64.lt_of_lt_of_le hlt (hlogs _ hmem))
      rw [Account.toNat_unknownStop] at hbound
      have hnext : entry.sequence + 1 ≠ 0 := Action.add_one_ne_zero (by
        rw [UInt64.size]
        omega)
      rw [hseek] at hgrounded hholds
      dsimp only
      rw [deliver_of_ne_zero entry pending medium hnext]
      refine ⟨hgrounded _ (UInt64.le_of_lt (Action.lt_add_one hnext)),
        ⟨_, hmem, ?_, hholds entry rfl⟩, rfl, Action.toNat_add_one hnext⟩
      rw [Segment.covers, Bool.and_eq_true, decide_eq_true_eq, decide_eq_true_eq]
      exact ⟨hstart, hlt⟩
  | exhausted => exact hrest
  | torn => exact ⟨grounded_of_pending fun _ hnone => (by cases hnone), rfl⟩
  | refused error behind =>
      rw [hyield] at hseek
      exact ⟨hseek ▸ hgrounded n (UInt64.le_refl n), rfl⟩

/-- Of the logs to come each is opened at its file's front. -/
theorem answered_readPending (hlogs : ∀ log ∈ logs, log.stop ≤ unknownStop)
    (hpending : ∀ log ∈ pending, log ∈ logs) (hfiles : medium.storage.files = files) :
    Answered files logs n (readPending n pending medium) := by
  induction pending generalizing medium with
  | nil => exact ⟨grounded_of_pending hpending, rfl⟩
  | cons log pending ih =>
      have hothers : ∀ other ∈ pending, other ∈ logs := fun other hother =>
        hpending other (List.mem_cons_of_mem _ hother)
      unfold readPending
      by_cases habove : n < log.start
      · rw [if_pos habove]
        exact ⟨grounded_of_pending hothers, rfl⟩
      · rw [if_neg habove]
        rcases (SegmentReader.ensures_load_files log medium).ok_or_error with
          ⟨reader, after, hload, -⟩ | ⟨e, after, hload, -⟩
        · rw [hload]
          obtain ⟨contents, hget, rfl, hsame⟩ := SegmentReader.exists_of_load hload
          have halong : SegmentReader.Along files { segment := log, rest := contents } :=
            ⟨[], hfiles ▸ hget, fun _ hnone => by cases hnone⟩
          exact answered_readOn hlogs hothers (hpending _ List.mem_cons_self)
            (UInt64.not_lt.1 habove) halong (ih hothers (hsame.trans hfiles))
        · rw [hload]
          exact ⟨grounded_of_pending hothers, rfl⟩

/-- **One read** leaves the replay grounded, however it ends, and never crashes. -/
theorem Grounded.answered_read (h : Grounded files logs replay)
    (hlogs : ∀ log ∈ logs, log.stop ≤ unknownStop) (hfiles : medium.storage.files = files) :
    Answered files logs replay.next (read (replay, medium)) := by
  obtain ⟨pending, current, n⟩ := replay
  have hrest : Answered files logs n (readPending n pending medium) :=
    answered_readPending hlogs h.pending hfiles
  cases current with
  | none => exact hrest
  | some reader =>
      obtain ⟨hmem, hstart, halong⟩ := h.current reader rfl
      exact answered_readOn hlogs h.pending hmem hstart halong hrest

/-! ### Runs of reads -/

/-- Reads of the same files, one after the other, whatever they answer, on media in any state; and
the entries they returned. -/
inductive Answers (files : PathMap Bytes) (opened : Replay) : List Entry → Replay → Prop
  /-- None was made. -/
  | opened : Answers files opened [] opened
  /-- One returned an entry. -/
  | entry {entries : List Entry} {entry : Entry} {replay replay' : Replay}
      {medium after : Medium Memory} (h : Answers files opened entries replay)
      (hfiles : medium.storage.files = files)
      (hread : read (replay, medium) = .ok (some entry) (replay', after)) :
      Answers files opened (entries ++ [entry]) replay'
  /-- One had nothing to return. -/
  | nothing {entries : List Entry} {replay replay' : Replay} {medium after : Medium Memory}
      (h : Answers files opened entries replay) (hfiles : medium.storage.files = files)
      (hread : read (replay, medium) = .ok none (replay', after)) :
      Answers files opened entries replay'
  /-- One failed. -/
  | failed {entries : List Entry} {replay replay' : Replay} {medium after : Medium Memory}
      {failure : Failure JournalError} (h : Answers files opened entries replay)
      (hfiles : medium.storage.files = files)
      (hread : read (replay, medium) = .error failure (replay', after)) :
      Answers files opened entries replay'

/-- What a run of reads leaves: the replay is grounded, every entry has its source, and they are
numbered one after the other up to the number expected. -/
theorem Answers.grounded {opened : Replay} {entries : List Entry}
    (h : Answers files opened entries replay) (hopened : Grounded files logs opened)
    (hlogs : ∀ log ∈ logs, log.stop ≤ unknownStop) :
    Grounded files logs replay ∧ (∀ entry ∈ entries, Sourced files logs entry) ∧
      replay.next.toNat = opened.next.toNat + entries.length ∧
      entries.map (fun entry => entry.sequence.toNat) =
        List.range' opened.next.toNat entries.length := by
  induction h with
  | opened => exact ⟨hopened, fun _ hnone => (by cases hnone), rfl, rfl⟩
  | @entry entries entry replay replay' medium after h hfiles hread ih =>
      obtain ⟨hgrounded, hsourced, hnext, hnumbers⟩ := ih
      have hstep := hgrounded.answered_read hlogs hfiles
      rw [hread] at hstep
      obtain ⟨hgrounded', hsource, hsequence, hsucc⟩ := hstep
      refine ⟨hgrounded', ?_, ?_, ?_⟩
      · intro e he
        rcases List.mem_append.1 he with he | he
        · exact hsourced e he
        · rwa [List.mem_singleton.1 he]
      · rw [List.length_append, List.length_singleton]
        omega
      · rw [List.map_append, hnumbers, List.length_append, List.length_singleton,
          List.range'_concat, List.map_singleton, hsequence, hnext, Nat.one_mul]
  | nothing h hfiles hread ih =>
      obtain ⟨hgrounded, hsourced, hnext, hnumbers⟩ := ih
      have hstep := hgrounded.answered_read hlogs hfiles
      rw [hread] at hstep
      exact ⟨hstep.1, hsourced, hstep.2 ▸ hnext, hnumbers⟩
  | @failed entries replay replay' medium after failure h hfiles hread ih =>
      obtain ⟨hgrounded, hsourced, hnext, hnumbers⟩ := ih
      have hstep := hgrounded.answered_read hlogs hfiles
      rw [hread] at hstep
      cases failure with
      | error e => exact ⟨hstep.1, hsourced, hstep.2 ▸ hnext, hnumbers⟩
      | crash c => exact hstep.elim

/-! ### Replays of a journal -/

/-- However a journal's directory is listed, no log stops behind the greatest stop. -/
theorem stop_le_of_mem_segmentsNamed {journal : Journal} {kind : SegmentKind} {names : List String}
    {log : Segment} (h : log ∈ journal.segmentsNamed kind names) : log.stop ≤ unknownStop := by
  rw [Journal.segmentsNamed, Segment.sorted, List.mem_mergeSort, List.mem_filterMap] at h
  obtain ⟨name, -, hlog⟩ := h
  obtain ⟨⟨start, stop⟩, hname, rfl⟩ := Option.map_eq_some_iff.1 hlog
  exact (Segment.bounds_of_decodeName? hname).2

theorem stop_le_of_mem_logsFrom {journal : Journal} {snapshot : Snapshot} {withIncomplete : Bool}
    {log : Segment} {before seen : Medium Memory}
    (hsnapshot : journal.snapshot before = .ok snapshot seen)
    (hlog : log ∈ logsFrom snapshot n withIncomplete) : log.stop ≤ unknownStop := by
  obtain ⟨checkpoints, names, hsegments⟩ :=
    (ends_snapshot_of_names journal before).of_ok hsnapshot
  obtain ⟨hcomplete, hcurrent⟩ := logs_of_ofSegments hsegments
  have hshown : log ∈ snapshot.logs ++ snapshot.current.toList := by
    have hmem := (List.mem_filter.1 hlog).1
    split at hmem
    · exact hmem
    · exact List.mem_append_left _ hmem
  rw [hcomplete, hcurrent, List.mem_append, List.mem_filter, List.mem_filter] at hshown
  exact stop_le_of_mem_segmentsNamed (hshown.elim And.left And.left)

/-- **Soundness**: whatever files a journal has, from whatever number a replay of it was opened and
however the reads ended that were made, the entries returned are numbered one after the other from
that number on; each was read off a log of the snapshot it was opened with, which covers its number;
and no read crashes, so that the number expected never overflows. -/
theorem Answers.sound {journal : Journal} {snapshot : Snapshot} {opened : Replay}
    {entries : List Entry} {withIncomplete : Bool} {before seen started : Medium Memory}
    (hsnapshot : journal.snapshot before = .ok snapshot seen)
    (hstart : start journal n withIncomplete before = .ok opened started)
    (hanswers : Answers files opened entries replay) :
    entries.map (fun entry => entry.sequence.toNat) = List.range' n.toNat entries.length ∧
      replay.next.toNat = n.toNat + entries.length ∧
      (∀ entry ∈ entries, Sourced files (logsFrom snapshot n withIncomplete) entry) ∧
      ∀ medium : Medium Memory, medium.storage.files = files → ∀ c state,
        read (replay, medium) ≠ .error (.crash c) state := by
  have hlogs : ∀ log ∈ logsFrom snapshot n withIncomplete, log.stop ≤ unknownStop :=
    fun log hlog => stop_le_of_mem_logsFrom hsnapshot hlog
  obtain ⟨rfl, -⟩ := opened_of_start hsnapshot hstart
  obtain ⟨hgrounded, hsourced, hnext, hnumbers⟩ :=
    hanswers.grounded (grounded_of_pending fun _ hlog => hlog) hlogs
  refine ⟨hnumbers, hnext, hsourced, fun medium hfiles c state hread => ?_⟩
  have hanswered := hgrounded.answered_read hlogs hfiles
  rw [hread] at hanswered
  exact hanswered

/-- For example, where an entry with a number that is too high stands between two others: an error
between them, and both are returned. -/
theorem sound_between :
    let journal := Journal.rooted "journal" {}
    let ledger : Ledger := fun i => [UInt8.ofNat i]
    let contents := ledger.frames 0 1 ++ ((ledger.entry 5).encode ++ ledger.frames 1 2)
    let medium : Medium Memory :=
      { storage := ⟨.onFlush, PathMap.empty.insert (journal.log 0 2).location contents, []⟩ }
    ∃ snapshot seen opened started replay,
      journal.snapshot medium = .ok snapshot seen ∧
      start journal 0 false medium = .ok opened started ∧
      Answers medium.storage.files opened [ledger.entry 0, ledger.entry 1] replay ∧
      ∀ entry ∈ [ledger.entry 0, ledger.entry 1],
        Sourced medium.storage.files (logsFrom snapshot 0 false) entry := by
  intro journal ledger contents medium
  have hfits : ledger.Fits := fun i => (by decide : 1 ≤ Frame.maxPayload)
  have hcontents : contents =
      ledger.frames 0 1 ++ ((ledger.entry 5).encode ++ ledger.frames 1 2) := rfl
  have hget : medium.storage.files.get? (journal.log 0 2).location = some contents := by
    simp [medium]
  have hquiet : medium.armed = 0 := rfl
  obtain ⟨seen, hsnapshot, hstart⟩ := start_single medium hquiet rfl
  clear_value medium contents ledger
  obtain ⟨_, loaded, hload, rfl, -⟩ := (SegmentReader.ensures_load hget).exists_ok
    fun _ _ hfoiled => hfoiled.2.toFired.elim hquiet
  -- The first entry is the one expected, the second is above it, and the third is it again.
  obtain ⟨first, hfirst, hsegment, hrest⟩ := yield_frames
    { segment := journal.log 0 2, rest := contents } hfits (Nat.le_refl 0) Nat.zero_lt_one
    (by decide : 1 < UInt64.size) (by decide : 0 < (2 : UInt64).toNat) hcontents
  rw [Ledger.frames_self, List.nil_append] at hrest
  have hstop : first.segment.stop = 2 := hsegment ▸ rfl
  let behind := first.behind (ledger.entry 5) (ledger.frames 1 2)
  have hsecond : yield 1 first = .refused (.entryMissing 1 5) behind :=
    yield_of_above (SegmentReader.read_encode_append (hfits 5) hrest)
      (by rw [hstop]; decide) (by decide : (1 : UInt64) < 5)
  obtain ⟨last, hlast, -⟩ := yield_frames behind hfits (Nat.le_refl 1) Nat.one_lt_two
    (by decide : 2 < UInt64.size) (by rw [show behind.segment.stop = 2 from hstop]; decide)
    (List.append_nil _).symm
  have hread : read ({ pending := [journal.log 0 2], next := 0 }, medium) =
      .ok (some (ledger.entry 0))
        ({ pending := [], current := some first, next := 1 }, loaded) :=
    (read_of_load (UInt64.lt_irrefl 0 : ¬ (0 : UInt64) < (journal.log 0 2).start)
      hload).trans (read_of_entry hfirst (by decide))
  have hfailed : read ({ pending := [], current := some first, next := 1 }, medium) =
      .error (.error (.entryMissing 1 5)) ({ pending := [], current := some behind, next := 1 },
        medium) := by
    rw [read_of_current, readOn, hsecond]
  have hanswers := ((Answers.opened.entry rfl hread).failed rfl hfailed).entry
    (rfl : medium.storage.files = medium.storage.files) (read_of_entry hlast (by decide))
  exact ⟨_, seen, _, seen, _, hsnapshot, hstart, hanswers,
    (hanswers.sound hsnapshot hstart).2.2.1⟩

end Replay

end SegmentedJournal
