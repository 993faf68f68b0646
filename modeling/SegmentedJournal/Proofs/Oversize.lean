import SegmentedJournal.Proofs.Codec
import SegmentedJournal.Proofs.Handing
import SegmentedJournal.Proofs.Segmentation
/-!
# Payloads that no frame holds

`Entry.encode` frames a payload of any length, and a writer that nothing hinders acknowledges it,
flushes it and completes the log that has it.  But a frame that declares more than `Frame.maxLength`
octets is refused when it is read, so whatever a replay hands out fits a frame
(`Frame.fits_of_decode`, `Replay.fits_of_delivers`).  What is acknowledged is therefore read back if
and only if it fits (`Course.read_iff_fits`).
-/

namespace SegmentedJournal

open Memory (Stream)

/-! ### What can be read fits -/

/-- An entry that is read from a frame fits one. -/
theorem Frame.fits_of_decode {data : Bytes} {entry : Entry} {used : Nat}
    (h : decode data = .ok (entry, used)) : entry.Fits :=
  (encode_of_decode h).2.1

namespace SegmentReader

variable {reader behind : SegmentReader} {entry : Entry}

theorem fits_of_read (h : reader.read = .ok (some (entry, behind))) : entry.Fits := by
  unfold read at h
  split at h
  · cases h
  · split at h
    · next hdecode =>
      cases h
      exact Frame.fits_of_decode hdecode
    · cases h

/-- A search finds only what can be read. -/
theorem fits_of_seek {n : UInt64} (h : reader.seek n = (.ok (some entry), behind)) :
    entry.Fits := by
  fun_induction seek n reader with
  | case1 reader found next hread hbelow ih => exact ih h
  | case2 reader found next hread hreached =>
      cases h
      exact fits_of_read hread
  | case3 => cases h
  | case4 => cases h

end SegmentReader

namespace Replay

variable {files : PathMap Bytes} {entry : Entry} {n : UInt64} {current : Option SegmentReader}
  {reader behind : SegmentReader} {pending : List Segment} {state : Replay × Medium Memory}

theorem fits_of_yield (h : yield n reader = .entry entry behind) : entry.Fits := by
  unfold yield at h
  split at h
  · cases h
  · split at h
    · cases h
    · next hseek =>
      split at h
      · cases h
      · cases h
        exact SegmentReader.fits_of_seek hseek
    · split at h <;> cases h

theorem Hands.fits (h : Hands files entry n current pending) : entry.Fits := by
  induction h with
  | now hyield _ => exact fits_of_yield hyield
  | later _ _ _ ih | exhausted _ _ ih | opened _ _ _ ih => exact ih

/-- Whatever a replay hands out fits a frame. -/
theorem fits_of_delivers (h : Delivers state entry) : entry.Fits :=
  (h.hands rfl).fits

end Replay

/-! ### What is acknowledged need not -/

namespace Course

/-- Once the writer is closed, a replay from any number of the history starts with its entry. -/
theorem Tracked.exists_read_close {journal : Journal} {ledger : Ledger} {base : PathMap Bytes}
    {publishing : Publishing} {cut : Cut} {course : Course} {b n s x : Nat}
    (h : course.Tracked journal ledger base publishing s b n cut) (hfits : ledger.Fits)
    (hsx : s ≤ x) (hxn : x < n) :
    ∃ replay opened state,
      Replay.start journal (UInt64.ofNat x) false (course.step .close).medium =
        .ok replay opened ∧
      Replay.read (replay, opened) = .ok (some (ledger.entry x)) state := by
  have hsize : n < UInt64.size := Nat.lt_trans h.tracks.bound (by decide)
  obtain ⟨-, -, hquiet, -⟩ := h.step_close
  obtain ⟨checkpoints, complete, hlists, hleads⟩ :=
    h.exists_leads_close false hsx (Nat.le_of_lt hxn)
  obtain ⟨replay, opened, hopen, hdue, hkeeps⟩ :=
    (Replay.ensures_start hlists (Medium.tame_of_armed hquiet).honest (Nat.lt_trans hxn hsize)
      hleads).exists_ok fun _ _ hfoiled => hfoiled.toFired.elim hquiet
  rw [← hkeeps.files_eq] at hdue
  obtain ⟨found, state, hread, ⟨heq, -⟩ | ⟨-, rfl, -⟩, -⟩ :=
    (Replay.ensures_read hfits hsize hdue).exists_ok
      fun _ _ hfoiled => hfoiled.toFired.elim (hkeeps.quiet hquiet)
  · exact absurd heq (Nat.ne_of_lt hxn)
  · exact ⟨replay, opened, state, hopen, hread⟩

variable {journal : Journal} {medium : Medium Memory} {checkpoints complete : List Segment}
  {current : Option Segment} {moves : List Move} {entry : Entry} {s : UInt64} {i : Nat}

/-- **Payloads of any length**: let nothing be armed, and the journal not go past `s`.  A writer
that is started there writes and flushes, and is closed, so that the number behind the last entry
can still be one of a log's name.  Nothing fails, and each entry is acknowledged under the next
number, however long its payload is; but a replay from that number on starts with the entry if and
only if it fits a frame, provided that the others do. -/
theorem read_iff_fits
    (hlists : journal.Lists medium.storage.files checkpoints complete current)
    (hvalid : journal.config.validate = .ok ()) (hquiet : medium.armed = 0)
    (hlast : ∀ log ∈ complete, log.stop ≤ s) (hcurrent : ∀ log ∈ current, log.start ≤ s)
    (hordinary : ∀ move ∈ moves, move.Ordinary)
    (hbound : s.toNat + (Move.written moves).length < unknownStop.toNat)
    (hentry : (Move.written moves)[i]? = some entry)
    (hothers : ∀ j other, j ≠ i → (Move.written moves)[j]? = some other → other.Fits) :
    ∃ writer started, Writer.start journal s medium = .ok writer started ∧
      let course := (begun writer started).run (moves ++ [.close])
      let acknowledged : Entry := ⟨UInt64.ofNat (s.toNat + i), entry.payload⟩
      course.failures = [] ∧ course.acked[i]? = some acknowledged ∧
        ((∃ replay opened state,
          Replay.start journal acknowledged.sequence false course.medium = .ok replay opened ∧
            Replay.read (replay, opened) = .ok (some acknowledged) state) ↔ entry.Fits) := by
  -- The ledger has what the history writes.
  have hcarries := Ledger.carries_extended (fun _ => []) s.toNat (Move.written moves)
  obtain ⟨hi, -⟩ := List.getElem?_eq_some_iff.1 hentry
  obtain ⟨writer, started, hstart⟩ := exists_start hlists hvalid hquiet
  obtain ⟨base, -, hbegun⟩ := exists_tracked_begun
    (Ledger.extended (fun _ => []) s.toNat (Move.written moves)) hstart hquiet
    (UInt64.lt_iff_toNat_lt.2 (by omega))
    (fun log hlog hstop => hlast log ((hlists.mem_complete log).2 ⟨hlog, hstop⟩))
    fun log hlog hstop => hcurrent log ((hlists.mem_current log).2 ⟨hlog, hstop⟩)
  obtain ⟨b, htracked⟩ := hbegun.run (maxLogBytes_pos hvalid) hordinary hcarries hbound
  obtain ⟨hfailures, hacked, -⟩ := htracked.step_close
  have hnext := hcarries i entry hentry
  refine ⟨writer, started, hstart, ?_⟩
  simp only [run_concat]
  refine ⟨hfailures, ?_, ?_, fun hfits => ?_⟩
  · rw [hacked, hnext]
    exact Ledger.getElem?_entries (by omega)
  · rintro ⟨replay, opened, state, -, hread⟩
    have hfits := Replay.fits_of_delivers (.now hread)
    exact hfits
  · have hall : ∀ other ∈ Move.written moves, other.Fits := by
      intro other hother
      obtain ⟨j, hj⟩ := List.getElem?_of_mem hother
      by_cases hji : j = i
      · cases hentry.symm.trans (hji ▸ hj)
        exact hfits
      · exact hothers j other hji hj
    rw [hnext]
    exact htracked.exists_read_close (Ledger.fits_extended (fun _ => Nat.zero_le _) hall)
      (Nat.le_add_right s.toNat i) (by omega)

/-- For example, an entry behind another one that is in the same log. -/
theorem read_iff_fits_second :
    let journal := Journal.rooted "journal" { gcEnabled := false }
    let medium : Medium Memory := { storage := { publishing := .onFlush } }
    let moves : List Move := [.write ⟨0, [97]⟩, .write ⟨0, [98]⟩, .flush]
    ∃ writer started, Writer.start journal 5 medium = .ok writer started ∧
      let course := (begun writer started).run (moves ++ [.close])
      course.failures = [] ∧ course.acked[1]? = some ⟨6, [98]⟩ ∧
        ∃ replay opened state, Replay.start journal 6 false course.medium = .ok replay opened ∧
          Replay.read (replay, opened) = .ok (some ⟨6, [98]⟩) state := by
  intro journal medium moves
  have hothers : ∀ j other, j ≠ 1 → (Move.written moves)[j]? = some other → other.Fits := by
    intro j other _ hother
    exact (by decide : ∀ other ∈ Move.written moves, other.Fits) other
      (List.mem_of_getElem? hother)
  obtain ⟨writer, started, hstart, hfailures, hacked, hread⟩ :=
    read_iff_fits (s := 5) (i := 1)
      (show journal.Lists medium.storage.files [] [] none from
        Journal.lists_of_snapshotOf_eq journal.snapshotOf_empty)
      (show journal.config.validate = .ok () from rfl) rfl nofun nofun
      (show ∀ move ∈ moves, move.Ordinary by decide) (by decide)
      (show (Move.written moves)[1]? = some ⟨0, [98]⟩ from rfl) hothers
  exact ⟨writer, started, hstart, hfailures, hacked, hread.2 (by decide)⟩

/-- For example, an entry whose payload is one octet too long is acknowledged and flushed, and its
log completed, but no replay that starts with its number has it. -/
theorem unread_too_long :
    let journal := Journal.rooted "journal" { gcEnabled := false }
    let medium : Medium Memory := { storage := { publishing := .onFlush } }
    let payload : Bytes := List.replicate (Frame.maxPayload + 1) 97
    ∃ writer started, Writer.start journal 0 medium = .ok writer started ∧
      let course := (begun writer started).run [.write ⟨0, payload⟩, .flush, .close]
      course.failures = [] ∧ course.acked = [⟨0, payload⟩] ∧
        ¬ ∃ replay opened state, Replay.start journal 0 false course.medium = .ok replay opened ∧
          Replay.read (replay, opened) = .ok (some ⟨0, payload⟩) state := by
  intro journal medium payload
  obtain ⟨writer, started, hstart⟩ := exists_start_of_empty 0
    (show journal.config.validate = .ok () from rfl) (show medium.storage.files = .empty from rfl)
    rfl
  have hcarries : Ledger.Carries (fun _ => payload) 0
      (Move.written [.write ⟨0, payload⟩, .flush]) := by
    rintro (_ | i) entry ⟨⟩
    rfl
  obtain ⟨b, htracked⟩ :=
    (tracked_begun_of_empty (fun _ => payload) rfl hstart rfl (by decide)).run (by decide)
      (show ∀ move ∈ [.write ⟨0, payload⟩, .flush], Move.Ordinary move by simp [Move.Ordinary])
      hcarries (by decide)
  obtain ⟨hfailures, hacked, -⟩ := htracked.step_close
  refine ⟨writer, started, hstart, hfailures, hacked, ?_⟩
  rintro ⟨replay, opened, state, -, hread⟩
  have hfits : payload.length ≤ Frame.maxPayload := Replay.fits_of_delivers (.now hread)
  rw [List.length_replicate] at hfits
  exact absurd hfits (Nat.not_succ_le_self _)

end Course

end SegmentedJournal
