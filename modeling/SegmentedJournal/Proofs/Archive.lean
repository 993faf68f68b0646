import SegmentedJournal.Proofs.Chain
import SegmentedJournal.Proofs.Ledger
/-!
# Archives

An account says what a journal should hold: a ledger of entries, which checkpoints there are, and
how far they reach.  `account.Stands files current a` holds the files against it: up to `a` the
complete logs are a chain and begin with the frames that the ledger says, and the current log, if
there is one, starts at `a`.

What a writer does to the files keeps them standing, one lemma for each change: a current log is
begun (`Stands.begin`), grows (`Stands.rewrite`), is completed (`Stands.completed`) or discarded
(`Stands.discard`).  What a collector does keeps them standing too, whatever log is current
(`Stands.erase_log`, `Stands.place`, `Stands.erase_checkpoint`).
-/

namespace SegmentedJournal

/-- What a journal should hold. -/
structure Account where
  /-- The journal. -/
  journal : Journal
  /-- What each sequence number carries. -/
  ledger : Ledger
  /-- Each entry fits a frame. -/
  fits : ledger.Fits
  /-- The logs lead on from here or from before. -/
  base : Nat
  /-- Logs that stop here or before may hold anything. -/
  trusted : Nat
  /-- The checkpoints. -/
  checkpoints : List Segment
  /-- Where the checkpoint that reaches furthest stops. -/
  reach : Nat
  /-- Each checkpoint covers everything before its stop. -/
  placed : ∀ checkpoint ∈ checkpoints, checkpoint = journal.checkpoint 0 checkpoint.stop
  /-- No checkpoint reaches further. -/
  stop_le : ∀ checkpoint ∈ checkpoints, checkpoint.stop.toNat ≤ reach
  /-- A checkpoint reaches so far, unless nothing is reached. -/
  attained : reach = 0 ∨ ∃ checkpoint ∈ checkpoints, checkpoint.stop.toNat = reach

namespace Account

variable {account account' : Account} {files files' : PathMap Bytes} {complete : List Segment}
  {current : Option Segment} {log : Segment} {a b m : Nat} {contents rest : Bytes}

/-- The log that is begun at a number. -/
def logFrom (account : Account) (a : Nat) : Segment :=
  account.journal.log (UInt64.ofNat a) unknownStop

/-- The log that covers a range. -/
def logOf (account : Account) (a m : Nat) : Segment :=
  account.journal.log (UInt64.ofNat a) (UInt64.ofNat m)

/-- The files hold these complete logs, a chain up to `a`, and this current log, which starts
there. -/
structure Archive (account : Account) (files : PathMap Bytes) (complete : List Segment)
    (current : Option Segment) (a : Nat) : Prop where
  /-- The logs are those of the files. -/
  lists : account.journal.Lists files account.checkpoints complete current
  /-- The complete logs are a chain. -/
  chain : ∃ x ≤ account.base, Chain account.reach x complete a
  /-- Where there are none, everything is reached. -/
  empty : complete = [] → a ≤ account.reach
  /-- A complete log begins with its frames. -/
  sound : ∀ log ∈ complete, account.trusted < log.stop.toNat → ∃ rest,
    files.get? log.location =
      some (account.ledger.frames log.start.toNat log.stop.toNat ++ rest)
  /-- The current log starts where the chain ends. -/
  starts : ∀ log ∈ current, log.start = UInt64.ofNat a
  /-- The chain ends where a log can start. -/
  bound : a < unknownStop.toNat

/-- The files hold what they should up to `a`. -/
def Stands (account : Account) (files : PathMap Bytes) (current : Option Segment) (a : Nat) :
    Prop :=
  ∃ complete, account.Archive files complete current a

/-! ### Numbers of logs -/

@[simp] theorem toNat_unknownStop : unknownStop.toNat = 9223372036854775807 := rfl

theorem toNat_ofNat_of_bound (h : a < unknownStop.toNat) : (UInt64.ofNat a).toNat = a := by
  rw [toNat_unknownStop] at h
  exact UInt64.toNat_ofNat_of_lt (show a < 18446744073709551616 by omega)

theorem ofNat_ne_unknownStop (h : a < unknownStop.toNat) : UInt64.ofNat a ≠ unknownStop := by
  intro heq
  have := congrArg UInt64.toNat heq
  rw [toNat_ofNat_of_bound h] at this
  omega

theorem ofNat_le_ofNat (hab : a ≤ b) (hb : b < unknownStop.toNat) :
    UInt64.ofNat a ≤ UInt64.ofNat b := by
  rw [UInt64.le_iff_toNat_le, toNat_ofNat_of_bound hb,
    toNat_ofNat_of_bound (Nat.lt_of_le_of_lt hab hb)]
  exact hab

theorem ofNat_le_unknownStop (h : a < unknownStop.toNat) : UInt64.ofNat a ≤ unknownStop := by
  rw [UInt64.le_iff_toNat_le, toNat_ofNat_of_bound h]
  exact Nat.le_of_lt h

theorem places_logFrom (account : Account) (h : a < unknownStop.toNat) :
    account.journal.Places (account.logFrom a) :=
  account.journal.places_log (ofNat_le_unknownStop h) (UInt64.le_refl _)

theorem places_logOf (account : Account) (ham : a ≤ m) (hm : m < unknownStop.toNat) :
    account.journal.Places (account.logOf a m) :=
  account.journal.places_log (ofNat_le_ofNat ham hm) (ofNat_le_unknownStop hm)

namespace Archive

theorem has_of_mem (h : account.Archive files complete current a) (hlog : log ∈ complete) :
    account.journal.Has files .log log ∧ log.stop ≠ unknownStop :=
  (h.lists.mem_complete log).1 hlog

theorem stop_le (h : account.Archive files complete current a) (hlog : log ∈ complete) :
    log.stop.toNat ≤ a := by
  obtain ⟨x, -, hchain⟩ := h.chain
  exact hchain.stop_le hlog

/-- The complete logs end where the chain does, or before. -/
theorem endOf_le (h : account.Archive files complete current a) : (endOf complete).toNat ≤ a := by
  cases hlast : complete.getLast? with
  | none =>
      rw [endOf, hlast]
      exact Nat.zero_le a
  | some last =>
      rw [endOf, hlast]
      exact h.stop_le (List.mem_of_getLast? hlast)

/-- They end there unless everything is reached. -/
theorem endOf_eq_of_lt (h : account.Archive files complete current a) (hreach : account.reach < a) :
    (endOf complete).toNat = a := by
  obtain ⟨x, -, hchain⟩ := h.chain
  cases hlast : complete.getLast? with
  | none =>
      exact absurd (h.empty (List.getLast?_eq_none_iff.1 hlast)) (Nat.not_le.2 hreach)
  | some last =>
      rw [endOf, hlast]
      rcases hchain.link_getLast? hlast with hstop | ⟨-, hle⟩
      · exact hstop
      · exact absurd hle (Nat.not_le.2 hreach)

/-- They end there just if one of them stops there. -/
theorem endOf_eq_iff (h : account.Archive files complete current a) (hpos : 0 < a) :
    (endOf complete).toNat = a ↔
      ∃ log, account.journal.Has files .log log ∧ log.stop = UInt64.ofNat a := by
  constructor
  · intro hend
    cases hlast : complete.getLast? with
    | none =>
        rw [endOf, hlast] at hend
        exact absurd hend (Nat.ne_of_lt hpos)
    | some last =>
        rw [endOf, hlast] at hend
        exact ⟨last, (h.has_of_mem (List.mem_of_getLast? hlast)).1,
          UInt64.toNat_inj.1 (hend.trans (toNat_ofNat_of_bound h.bound).symm)⟩
  · rintro ⟨log, hhas, hstop⟩
    obtain ⟨x, -, hchain⟩ := h.chain
    have hmem := (h.lists.mem_complete log).2 ⟨hhas, hstop ▸ ofNat_ne_unknownStop h.bound⟩
    have hle := UInt64.le_iff_toNat_le.1 (hchain.stop_le_endOf hmem)
    rw [hstop, toNat_ofNat_of_bound h.bound] at hle
    exact Nat.le_antisymm h.endOf_le hle

/-- Complete logs keep their frames if their files are left alone. -/
theorem sound_of_get? (h : account.Archive files complete current a)
    (hsame : ∀ log ∈ complete, files'.get? log.location = files.get? log.location) :
    ∀ log ∈ complete, account.trusted < log.stop.toNat → ∃ rest,
      files'.get? log.location =
        some (account.ledger.frames log.start.toNat log.stop.toNat ++ rest) := by
  intro log hlog hstop
  obtain ⟨rest, hget⟩ := h.sound log hlog hstop
  exact ⟨rest, (hsame log hlog).trans hget⟩

end Archive

namespace Stands

theorem bound (h : account.Stands files current a) : a < unknownStop.toNat := by
  obtain ⟨complete, h⟩ := h
  exact h.bound

theorem has_current (h : account.Stands files (some log) a) :
    account.journal.Has files .log log ∧ log.stop = unknownStop ∧ log.start = UInt64.ofNat a := by
  obtain ⟨complete, h⟩ := h
  obtain ⟨hhas, hstop⟩ := h.lists.has_current
  exact ⟨hhas, hstop, h.starts log rfl⟩

/-- The file of a log with entries behind the chain is not there. -/
theorem absent_logOf (h : account.Stands files current a) (ham : a < m)
    (hm : m < unknownStop.toNat) : files.contains (account.logOf a m).location = false := by
  obtain ⟨complete, h⟩ := h
  rw [← Bool.not_eq_true]
  intro hpresent
  have hmem := (h.lists.mem_complete (account.logOf a m)).2
    ⟨⟨places_logOf account (Nat.le_of_lt ham) hm, rfl, hpresent⟩, ofNat_ne_unknownStop hm⟩
  have hle : (UInt64.ofNat m).toNat ≤ a := h.stop_le hmem
  rw [toNat_ofNat_of_bound hm] at hle
  omega

/-- Without a current log, no file of a log to begin is there. -/
theorem absent_logFrom (h : account.Stands files none a) (hb : b < unknownStop.toNat) :
    files.get? (account.logFrom b).location = none := by
  obtain ⟨complete, h⟩ := h
  exact h.lists.absent_incomplete (ofNat_le_unknownStop hb)

/-! ### What a writer changes -/

/-- A current log is discarded. -/
theorem discard (h : account.Stands files (some log) a) :
    account.Stands (files.erase log.location) none a := by
  obtain ⟨complete, h⟩ := h
  obtain ⟨hhas, hstop⟩ := h.lists.has_current
  refine ⟨complete, h.lists.erase_current, h.chain, h.empty, h.sound_of_get? ?_,
    fun _ hnone => (by cases hnone), h.bound⟩
  intro other hother
  obtain ⟨hother, hotherStop⟩ := h.has_of_mem hother
  rw [PathMap.get?_erase, if_neg]
  exact hhas.ne_location hother fun heq => hotherStop (heq ▸ hstop)

/-- A current log gets other contents. -/
theorem rewrite (h : account.Stands files (some log) a) (contents : Bytes) :
    account.Stands (files.insert log.location contents) (some log) a := by
  obtain ⟨complete, h⟩ := h
  obtain ⟨hhas, hstop⟩ := h.lists.has_current
  refine ⟨complete, h.lists.of_contains ?_, h.chain, h.empty, h.sound_of_get? ?_, h.starts, h.bound⟩
  · intro path
    rw [Bool.eq_iff_iff, PathMap.contains_insert, or_iff_right_of_imp]
    rintro rfl
    exact hhas.present
  · intro other hother
    obtain ⟨hother, hotherStop⟩ := h.has_of_mem hother
    rw [PathMap.get?_insert, if_neg]
    exact hhas.ne_location hother fun heq => hotherStop (heq ▸ hstop)

/-- A log is begun where the chain ends. -/
theorem begin (h : account.Stands files none a) (contents : Bytes) :
    account.Stands (files.insert (account.logFrom a).location contents)
      (some (account.logFrom a)) a := by
  obtain ⟨complete, h⟩ := h
  have hplaces := places_logFrom account h.bound
  refine ⟨complete, h.lists.insert_current hplaces rfl rfl, h.chain, h.empty,
    h.sound_of_get? ?_, ?_, h.bound⟩
  · intro other hother
    obtain ⟨hother, hotherStop⟩ := h.has_of_mem hother
    rw [PathMap.get?_insert, if_neg]
    intro hlocation
    have heq := hplaces.eq_of_location hother.places hlocation
    exact hotherStop (heq ▸ rfl)
  · rintro log ⟨⟩
    rfl

/-- Where everything is reached, the next log may start further on. -/
theorem skip (h : account.Stands files none a) (hab : a ≤ b) (hb : b ≤ account.reach)
    (hbound : b < unknownStop.toNat) : account.Stands files none b := by
  obtain ⟨complete, h⟩ := h
  obtain ⟨x, hx, hchain⟩ := h.chain
  exact ⟨complete, h.lists, ⟨x, hx, hchain.link (.inr ⟨hab, hb⟩)⟩, fun _ => hb, h.sound,
    fun _ hnone => (by cases hnone), hbound⟩

/-- The current log is completed with the entries it has. -/
theorem completed (h : account.Stands files (some log) a) (ham : a < m)
    (hm : m < unknownStop.toNat) (rest : Bytes) :
    account.Stands ((files.erase log.location).insert (account.logOf a m).location
      (account.ledger.frames a m ++ rest)) none m := by
  obtain ⟨complete, h⟩ := h.discard
  have hplaces := places_logOf account (Nat.le_of_lt ham) hm
  have ha : (account.logOf a m).start.toNat = a := toNat_ofNat_of_bound h.bound
  have hstop : (account.logOf a m).stop.toNat = m := toNat_ofNat_of_bound hm
  -- No complete log stops behind `a`, and this one starts there and stops behind it.
  have hbefore : ∀ before ∈ complete, before.precedes (account.logOf a m) = true := by
    intro before hbefore
    obtain ⟨x, -, hchain⟩ := h.chain
    have hbounds := UInt64.le_iff_toNat_le.1 (hchain.start_le_stop hbefore)
    have hle := hchain.stop_le hbefore
    rw [Segment.precedes_iff, UInt64.lt_iff_toNat_lt, UInt64.lt_iff_toNat_lt, ha, hstop,
      ← UInt64.toNat_inj, ha]
    omega
  refine ⟨complete ++ [account.logOf a m],
    h.lists.insert_complete hplaces rfl (ofNat_ne_unknownStop hm) hbefore, ?_, ?_, ?_,
    fun _ hnone => (by cases hnone), hm⟩
  · obtain ⟨x, hx, hchain⟩ := h.chain
    have hsnoc := hchain.snoc ha (ofNat_le_ofNat (Nat.le_of_lt ham) hm)
    rw [hstop] at hsnoc
    exact ⟨x, hx, hsnoc⟩
  · intro hnil
    simp at hnil
  · intro other hother htrusted
    rw [PathMap.get?_insert]
    split
    · next hlocation =>
      have heq : account.logOf a m = other := by
        rcases List.mem_append.1 hother with hold | hnew
        · exact hplaces.eq_of_location (h.has_of_mem hold).1.places hlocation
        · exact (List.mem_singleton.1 hnew).symm
      rw [← heq, ha, hstop]
      exact ⟨rest, rfl⟩
    · next hne =>
      rcases List.mem_append.1 hother with hold | hnew
      · exact h.sound other hold htrusted
      · exact absurd (congrArg Segment.location (List.mem_singleton.1 hnew).symm) hne

/-! ### What a collector changes -/

/-- A complete log that is reached as a whole is removed. -/
theorem erase_log (h : account.Stands files current a) (hplaces : account.journal.Places log)
    (hkind : log.kind = .log) (hstop : log.stop ≠ unknownStop)
    (hreach : log.stop.toNat ≤ account.reach) :
    account.Stands (files.erase log.location) current a := by
  obtain ⟨complete, h⟩ := h
  have hdropped : ∀ other ∈ complete, decide (other ≠ log) = false →
      other.stop.toNat ≤ account.reach := by
    intro other _ hdrop
    obtain rfl : other = log := by simpa using hdrop
    exact hreach
  obtain ⟨x, hx, hchain⟩ := h.chain
  refine ⟨_, h.lists.erase_complete hplaces hkind hstop, ⟨x, hx, hchain.filter hdropped⟩, ?_,
    ?_, h.starts, h.bound⟩
  · -- If no log is left the last one was removed, so that it was reached, and so is what follows.
    intro hnil
    cases hlast : complete.getLast? with
    | none => exact h.empty (List.getLast?_eq_none_iff.1 hlast)
    | some last =>
        have hmem := List.mem_of_getLast? hlast
        have hle := hdropped last hmem (by
          rw [List.filter_eq_nil_iff] at hnil
          simpa using hnil last hmem)
        rcases hchain.link_getLast? hlast with heq | ⟨-, hle'⟩ <;> omega
  · intro other hother htrusted
    obtain ⟨hmem, hne⟩ := List.mem_filter.1 hother
    obtain ⟨rest, hget⟩ := h.sound other hmem htrusted
    refine ⟨rest, ?_⟩
    rw [PathMap.get?_erase, if_neg, hget]
    intro hlocation
    have heq := hplaces.eq_of_location (h.has_of_mem hmem).1.places hlocation
    simp [heq] at hne

end Stands

/-- The account with one more checkpoint. -/
def including (account : Account) (stop : UInt64) (checkpoints : List Segment)
    (hmem : ∀ segment, segment ∈ checkpoints ↔
      segment ∈ account.checkpoints ∨ segment = account.journal.checkpoint 0 stop) : Account :=
  { account with
    checkpoints
    reach := max account.reach stop.toNat
    placed := fun checkpoint hcheckpoint => by
      rcases (hmem checkpoint).1 hcheckpoint with hold | rfl
      · exact account.placed checkpoint hold
      · rfl
    stop_le := fun checkpoint hcheckpoint => by
      rcases (hmem checkpoint).1 hcheckpoint with hold | rfl
      · exact Nat.le_trans (account.stop_le checkpoint hold) (Nat.le_max_left ..)
      · exact Nat.le_max_right ..
    attained := by
      rcases Nat.le_total stop.toNat account.reach with hle | hle
      · rw [Nat.max_eq_left hle]
        refine account.attained.imp_right ?_
        rintro ⟨checkpoint, hold, hstop⟩
        exact ⟨checkpoint, (hmem checkpoint).2 (.inl hold), hstop⟩
      · rw [Nat.max_eq_right hle]
        exact .inr ⟨_, (hmem _).2 (.inr rfl), rfl⟩ }

/-- The account without a checkpoint that another one reaches beyond. -/
def without (account : Account) (checkpoint : Segment)
    (hstop : checkpoint.stop.toNat < account.reach) : Account :=
  { account with
    checkpoints := account.checkpoints.filter (· ≠ checkpoint)
    placed := fun other hother => account.placed other ((List.mem_filter.1 hother).1)
    stop_le := fun other hother => account.stop_le other ((List.mem_filter.1 hother).1)
    attained := by
      refine account.attained.imp_right ?_
      rintro ⟨other, hother, hattained⟩
      refine ⟨other, List.mem_filter.2 ⟨hother, decide_eq_true ?_⟩, hattained⟩
      rintro rfl
      omega }

namespace Stands

/-- A checkpoint is put in place. -/
theorem place {stop : UInt64} {checkpoints : List Segment} {image : Bytes}
    (h : account.Stands files current a) (hstop : stop ≤ unknownStop)
    (hsorted : checkpoints.Pairwise fun a b => a.precedes b = true)
    (hmem : ∀ segment, segment ∈ checkpoints ↔
      segment ∈ account.checkpoints ∨ segment = account.journal.checkpoint 0 stop) :
    (account.including stop checkpoints hmem).Stands
      (files.insert (account.journal.checkpoint 0 stop).location image) current a := by
  obtain ⟨complete, h⟩ := h
  have hplaces := account.journal.places_checkpoint
    (show (0 : UInt64) ≤ stop from UInt64.le_iff_toNat_le.2 (Nat.zero_le _)) hstop
  obtain ⟨x, hx, hchain⟩ := h.chain
  refine ⟨complete, h.lists.insert_checkpoint hplaces rfl hsorted hmem,
    ⟨x, hx, hchain.mono (Nat.le_max_left ..)⟩,
    fun hnil => Nat.le_trans (h.empty hnil) (Nat.le_max_left ..),
    h.sound_of_get? ?_, h.starts, h.bound⟩
  intro log hlog
  obtain ⟨hhas, -⟩ := h.has_of_mem hlog
  rw [PathMap.get?_insert, if_neg]
  exact hhas.ne_of_kind_ne hplaces nofun

/-- A checkpoint that another one reaches beyond is removed. -/
theorem erase_checkpoint {checkpoint : Segment} (h : account.Stands files current a)
    (hplaces : account.journal.Places checkpoint) (hkind : checkpoint.kind = .checkpoint)
    (hstop : checkpoint.stop.toNat < account.reach) :
    (account.without checkpoint hstop).Stands (files.erase checkpoint.location) current a := by
  obtain ⟨complete, h⟩ := h
  refine ⟨complete, h.lists.erase_checkpoint hplaces hkind, h.chain, h.empty,
    h.sound_of_get? ?_, h.starts, h.bound⟩
  intro log hlog
  obtain ⟨hhas, -⟩ := h.has_of_mem hlog
  rw [PathMap.get?_erase, if_neg]
  exact hhas.ne_of_kind_ne hplaces (hkind ▸ nofun)

end Stands

end Account

end SegmentedJournal
