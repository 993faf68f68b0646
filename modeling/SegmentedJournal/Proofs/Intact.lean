import SegmentedJournal.Proofs.Courses
import SegmentedJournal.Proofs.Reading
/-!
# Intact journals

`journal.Intact ledger trusted files complete current next` says what a journal without checkpoints
is where nothing is lost: its complete logs are contiguous and begin with the frames that the
ledger says, and the data end at `next`, in the current log if there is one.  It is said by way of
the snapshot that the files give; as an account of the journal it says that the files are durable
there (`Intact.durable`, `Durable.intact`).

What a writer will acknowledge is not known when it starts.  So the ledger is extended by it
(`Ledger.extended`), which changes nothing of the files that were there (`Intact.extend`), and the
account with the extended ledger is kept by the whole course (`Intact.kept_run`).
-/

namespace SegmentedJournal

open Memory (Stream)

/-! ### Extended ledgers -/

namespace Ledger

variable {ledger : Ledger} {entries : List Entry} {a b s : Nat}

/-- The ledger with the payloads of entries that are numbered from `s` on. -/
def extended (ledger : Ledger) (s : Nat) (entries : List Entry) : Ledger := fun i =>
  if i < s then ledger i else (entries[i - s]?.map Entry.payload).getD []

theorem carries_extended (ledger : Ledger) (s : Nat) (entries : List Entry) :
    (ledger.extended s entries).Carries s entries := by
  intro i entry hentry
  have hbehind : ¬ s + i < s := by omega
  simp [extended, hbehind, hentry]

theorem fits_extended (hfits : ledger.Fits) (hentries : ∀ entry ∈ entries, entry.Fits) :
    (ledger.extended s entries).Fits := by
  intro i
  by_cases hlt : i < s
  · simpa [entry, extended, hlt] using hfits i
  · cases hget : entries[i - s]? with
    | none => simp [entry, extended, hlt, hget, Entry.Fits]
    | some known =>
        have hknown := hentries known (List.mem_of_getElem? hget)
        simpa [entry, extended, hlt, hget, Entry.Fits] using hknown

/-- Below where it is extended the ledger is as before. -/
theorem frames_extended (hb : b ≤ s) :
    (ledger.extended s entries).frames a b = ledger.frames a b := by
  rw [frames, frames, entries_congr]
  intro i _ hi
  exact if_pos (Nat.lt_of_lt_of_le hi hb)

end Ledger

/-! ### Intact files -/

/-- Nothing of a journal without checkpoints is lost, and its data end at `next`.  Logs that stop at
`trusted` or before may hold anything. -/
structure Journal.Intact (journal : Journal) (ledger : Ledger) (trusted : Nat)
    (files : PathMap Bytes) (complete : List Segment) (current : Option Segment) (next : Nat) :
    Prop where
  /-- These are the complete logs and the current one, and there are no checkpoints. -/
  snapshot_eq : journal.snapshotOf files = .ok ⟨[], complete, current⟩
  /-- Each complete log starts where the one before it stops. -/
  contiguous : Snapshot.areContiguous complete = true
  /-- A complete log begins with the frames of its entries. -/
  sound : ∀ log ∈ complete, trusted < log.stop.toNat → ∃ rest,
    files.get? log.location = some (ledger.frames log.start.toNat log.stop.toNat ++ rest)
  /-- Without a current log the data end with the complete ones. -/
  ends : current = none → next = (endOf complete).toNat
  /-- A current log starts where the complete ones end, and holds the frames of its entries and a
  torn one. -/
  current : ∀ log ∈ current, log.start = endOf complete ∧ log.start.toNat ≤ next ∧
    ∃ tail, Frame.Torn tail ∧
      files.get? log.location = some (ledger.frames log.start.toNat next ++ tail)

/-- The account of a journal without checkpoints. -/
def Journal.account (journal : Journal) (ledger : Ledger) (fits : ledger.Fits)
    (base trusted : Nat) : Account :=
  { journal, ledger, fits, base, trusted
    checkpoints := []
    reach := 0
    placed := fun _ hnone => (by cases hnone)
    stop_le := fun _ hnone => (by cases hnone)
    attained := .inl rfl }

/-! A journal that was just made, one whose first log was cut off, and one with a single log. -/

theorem Journal.intact_empty (journal : Journal) (ledger : Ledger) (trusted : Nat) :
    journal.Intact ledger trusted .empty [] none 0 :=
  ⟨journal.snapshotOf_empty, rfl, fun _ hnone => (by cases hnone), fun _ => rfl,
    fun _ hnone => (by cases hnone)⟩

theorem Journal.intact_cut (journal : Journal) (ledger : Ledger) (trusted next : Nat)
    {tail : Bytes} (htail : Frame.Torn tail) :
    journal.Intact ledger trusted
      (PathMap.empty.insert (journal.log 0 unknownStop).location (ledger.frames 0 next ++ tail))
      [] (some (journal.log 0 unknownStop)) next := by
  have hplaces : journal.Places (journal.log 0 unknownStop) :=
    journal.places_log (by decide) (UInt64.le_refl _)
  have hlists := lists_of_snapshotOf_eq journal.snapshotOf_empty
  refine ⟨(hlists.insert_current hplaces rfl rfl).snapshotOf_eq, rfl,
    fun _ hnone => (by cases hnone), fun hnone => (by cases hnone), ?_⟩
  rintro log ⟨⟩
  refine ⟨rfl, Nat.zero_le next, tail, htail, ?_⟩
  rw [PathMap.get?_insert, if_pos rfl]
  rfl

theorem Journal.intact_whole (journal : Journal) (ledger : Ledger) (trusted : Nat)
    {start stop : UInt64} (hle : start ≤ stop) (hstop : stop < unknownStop) :
    journal.Intact ledger trusted
      (PathMap.empty.insert (journal.log start stop).location
        (ledger.frames start.toNat stop.toNat))
      [journal.log start stop] none stop.toNat := by
  have hplaces : journal.Places (journal.log start stop) :=
    journal.places_log hle (UInt64.le_of_lt hstop)
  have hlists := lists_of_snapshotOf_eq journal.snapshotOf_empty
  refine ⟨(hlists.insert_complete hplaces rfl (UInt64.ne_of_lt hstop)
    fun _ hnone => (by cases hnone)).snapshotOf_eq, rfl, ?_, fun _ => rfl,
    fun _ hnone => (by cases hnone)⟩
  intro log hlog _
  rw [List.mem_singleton.1 hlog]
  exact ⟨[], by rw [PathMap.get?_insert, if_pos rfl, List.append_nil]; rfl⟩

namespace Journal.Intact

variable {journal : Journal} {ledger : Ledger} {files : PathMap Bytes} {complete : List Segment}
  {current : Option Segment} {base next s trusted : Nat}

theorem lists (h : journal.Intact ledger trusted files complete current next) :
    journal.Lists files [] complete current :=
  lists_of_snapshotOf_eq h.snapshot_eq

theorem start_le_stop (h : journal.Intact ledger trusted files complete current next) :
    ∀ log ∈ complete, log.start ≤ log.stop :=
  fun log hlog => ((h.lists.mem_complete log).1 hlog).1.places.bounds.1

theorem chain (h : journal.Intact ledger trusted files complete current next) :
    Chain 0 (beginOf complete).toNat complete (endOf complete).toNat :=
  chain_of_areContiguous h.contiguous h.start_le_stop

theorem endOf_le (h : journal.Intact ledger trusted files complete current next) :
    (endOf complete).toNat ≤ next := by
  cases hcurrent : current with
  | none => exact Nat.le_of_eq (h.ends hcurrent).symm
  | some log =>
      obtain ⟨hstart, hle, -⟩ := h.current log hcurrent
      exact hstart ▸ hle

theorem endOf_lt (h : journal.Intact ledger trusted files complete current next) :
    (endOf complete).toNat < unknownStop.toNat := by
  cases hlast : complete.getLast? with
  | none => simp [endOf, hlast]
  | some log =>
      obtain ⟨hhas, hstop⟩ := (h.lists.mem_complete log).1 (List.mem_of_getLast? hlast)
      have hle := UInt64.le_iff_toNat_le.1 hhas.places.bounds.2
      have hne : log.stop.toNat ≠ unknownStop.toNat := fun heq => hstop (UInt64.toNat_inj.1 heq)
      rw [endOf, hlast]
      show log.stop.toNat < unknownStop.toNat
      omega

/-- The files of an intact journal are durable to their end. -/
theorem durable (h : journal.Intact ledger trusted files complete current next)
    (hfits : ledger.Fits) (hbase : next ≤ base) :
    (journal.account ledger hfits base trusted).Durable files current (endOf complete).toNat
      next := by
  have hself : endOf complete = UInt64.ofNat (endOf complete).toNat := UInt64.ofNat_toNat.symm
  have hbegin : (beginOf complete).toNat ≤ base :=
    Nat.le_trans h.chain.le (Nat.le_trans h.endOf_le hbase)
  refine ⟨⟨complete, h.lists, ⟨_, hbegin, h.chain⟩, ?_, h.sound, ?_, h.endOf_lt⟩, h.endOf_le,
    h.ends, ?_⟩
  · rintro rfl
    exact Nat.le_refl 0
  · intro log hlog
    exact (h.current log hlog).1.trans hself
  · intro log hlog
    obtain ⟨hstart, -, htail⟩ := h.current log hlog
    rwa [hstart] at htail

/-- What comes behind the data of a journal changes nothing of it. -/
theorem extend (h : journal.Intact ledger trusted files complete current next) (hs : next ≤ s)
    (entries : List Entry) :
    journal.Intact (ledger.extended s entries) trusted files complete current next := by
  refine ⟨h.snapshot_eq, h.contiguous, ?_, h.ends, ?_⟩
  · intro log hlog htrusted
    have hle := h.chain.stop_le hlog
    rw [Ledger.frames_extended (Nat.le_trans hle (Nat.le_trans h.endOf_le hs))]
    exact h.sound log hlog htrusted
  · intro log hlog
    rw [Ledger.frames_extended hs]
    exact h.current log hlog

end Journal.Intact

namespace Account

variable {account : Account} {files : PathMap Bytes} {current : Option Segment} {a m : Nat}

/-- Where there are no checkpoints, durable files are an intact journal. -/
theorem Durable.intact (h : account.Durable files current a m)
    (hcheckpoints : account.checkpoints = []) (hreach : account.reach = 0) :
    ∃ complete, account.journal.Intact account.ledger account.trusted files complete current m := by
  obtain ⟨complete, harchive⟩ := h.stands
  obtain ⟨x, -, hchain⟩ := harchive.chain
  rw [hreach] at hchain
  have hend : (endOf complete).toNat = a :=
    endOf_eq_of_chain hchain fun hnil => Nat.le_zero.1 (hreach ▸ harchive.empty hnil)
  have hself : endOf complete = UInt64.ofNat a := by rw [← hend, UInt64.ofNat_toNat]
  refine ⟨complete, hcheckpoints ▸ harchive.lists.snapshotOf_eq, areContiguous_of_chain hchain,
    harchive.sound, fun hnone => (h.absent hnone).trans hend.symm, ?_⟩
  intro log hlog
  have hstart := harchive.starts log hlog
  have hbegin : log.start.toNat = a := by
    rw [hstart]
    exact toNat_ofNat_of_bound harchive.bound
  rw [hbegin]
  exact ⟨hstart.trans hself.symm, h.le, h.present log hlog⟩

end Account

/-! ### Courses on intact journals -/

namespace Journal.Intact

variable {journal : Journal} {ledger : Ledger} {complete : List Segment}
  {current : Option Segment} {trusted : Nat} {s : UInt64} {medium started : Medium Memory}
  {writer : Writer Stream} {moves : List Move}

/-- A writer can be started where the data of a journal end. -/
theorem exists_start
    (h : journal.Intact ledger trusted medium.storage.files complete current s.toNat)
    (hfits : ledger.Fits) (hvalid : journal.config.validate = .ok ())
    (hs : s.toNat < unknownStop.toNat) (hquiet : medium.armed = 0) :
    ∃ writer started, Writer.start journal s medium = .ok writer started := by
  have hensures := (h.durable hfits (Nat.le_refl _)).ensures_start hvalid hs (Nat.zero_le _)
    (Medium.tame_of_armed hquiet)
  obtain ⟨writer, started, hstart, -⟩ :=
    hensures.exists_ok fun _ _ hfailed => hfailed.2.toFired.elim hquiet
  exact ⟨writer, started, hstart⟩

/-- A writer that was started where the data of a journal end is in good standing, whatever the
ledger has from there on. -/
theorem kept_begun {entries : List Entry}
    (h : journal.Intact ledger trusted medium.storage.files complete current s.toNat)
    (hvalid : journal.config.validate = .ok ()) (hs : s.toNat < unknownStop.toNat)
    (htame : medium.Tame) (hstart : Writer.start journal s medium = .ok writer started)
    (hextended : (ledger.extended s.toNat entries).Fits) :
    (Course.begun writer started).Kept (journal.account _ hextended s.toNat trusted) s.toNat
      medium.storage.publishing ∧ writer.closed = false := by
  have hensures := ((h.extend (Nat.le_refl _) _).durable hextended (Nat.le_refl _)).ensures_start
    hvalid hs (Nat.zero_le _) htame
  obtain ⟨hkeeps, hopen, hstanding⟩ := hensures.of_ok hstart
  exact ⟨⟨hstanding, Ledger.entries_self.symm, Nat.le_refl 0, hkeeps.publishing_eq,
    fun _ hnone => (by cases hnone)⟩, hopen⟩

/-- **Course**: a writer that was started where the data of a journal end stays in good standing
with what it acknowledges. -/
theorem kept_run (h : journal.Intact ledger trusted medium.storage.files complete current s.toNat)
    (hfits : ledger.Fits) (hvalid : journal.config.validate = .ok ())
    (hs : s.toNat < unknownStop.toNat) (htame : medium.Tame)
    (hstart : Writer.start journal s medium = .ok writer started)
    (hfair : ∀ move ∈ moves, move.Fair medium.storage.publishing)
    (hbound : s.toNat + ((Course.begun writer started).run moves).acked.length <
      unknownStop.toNat) :
    ∃ hextended : (ledger.extended s.toNat ((Course.begun writer started).run moves).acked).Fits,
      ((Course.begun writer started).run moves).Kept
        (journal.account _ hextended s.toNat trusted) s.toNat medium.storage.publishing ∧
      ((∀ move ∈ moves, move ≠ .close) →
        ((Course.begun writer started).run moves).writer.closed = false) := by
  -- The ledger goes on with what the course is going to acknowledge.
  have hnone : ∀ entry ∈ (Course.begun writer started).acked, entry.Fits :=
    fun _ hentry => (by cases hentry)
  have hextended := Ledger.fits_extended (s := s.toNat) hfits
    ((Course.acknowledges medium.storage.publishing).fits hfair hnone)
  obtain ⟨hbegun, hopen⟩ := h.kept_begun hvalid hs htame hstart hextended
  obtain ⟨hkept, hclosed⟩ := hbegun.run hfair (Ledger.carries_extended _ _ _) hbound
  exact ⟨hextended, hkept, fun hmoves => (hclosed hmoves).trans hopen⟩

end Journal.Intact

end SegmentedJournal
