import SegmentedJournal.Proofs.Frames
/-!
# Ledgers

A ledger says what each sequence number carries.  It is the second account against which the
files of a journal and the memory of a writer are held: `ledger.entries start stop` are the
entries that a log from `start` up to `stop` should have, and `ledger.frames start stop` the octets
it should begin with.

Octets that were cut off anywhere in a ledger's frames are whole frames and a torn one
(`exists_torn_of_prefix`); `wholeFrames` counts the whole ones.
-/

namespace SegmentedJournal

/-- What each sequence number carries. -/
abbrev Ledger := Nat → Bytes

namespace Ledger

variable {ledger : Ledger} {a b c i : Nat}

/-- The entry with a number. -/
def entry (ledger : Ledger) (i : Nat) : Entry := ⟨UInt64.ofNat i, ledger i⟩

/-- The entries from `start` up to `stop`. -/
def entries (ledger : Ledger) (start stop : Nat) : List Entry :=
  (List.range' start (stop - start)).map ledger.entry

/-- The frames of the entries from `start` up to `stop`. -/
def frames (ledger : Ledger) (start stop : Nat) : Bytes :=
  Entry.encodeAll (ledger.entries start stop)

/-- Each number's payload fits a frame. -/
def Fits (ledger : Ledger) : Prop := ∀ i, (ledger.entry i).Fits

/-! ### Runs of entries -/

@[simp] theorem length_entries : (ledger.entries a b).length = b - a := by
  simp [entries]

theorem getElem?_entries {i : Nat} (h : a + i < b) :
    (ledger.entries a b)[i]? = some (ledger.entry (a + i)) := by
  rw [List.getElem?_eq_getElem (by rw [length_entries]; omega)]
  simp [entries]

theorem entries_of_le (h : b ≤ a) : ledger.entries a b = [] := by
  simp [entries, Nat.sub_eq_zero_of_le h]

@[simp] theorem entries_self : ledger.entries a a = [] := entries_of_le (Nat.le_refl a)

theorem entries_append (hab : a ≤ b) (hbc : b ≤ c) :
    ledger.entries a b ++ ledger.entries b c = ledger.entries a c := by
  have hsum : c - a = (b - a) + (c - b) := by omega
  have hb : b = a + 1 * (b - a) := by omega
  rw [entries, entries, entries, ← List.map_append, hsum, ← List.range'_append, ← hb]

theorem entries_succ (hab : a ≤ b) :
    ledger.entries a (b + 1) = ledger.entries a b ++ [ledger.entry b] := by
  rw [← entries_append hab (Nat.le_succ b)]
  simp [entries]

theorem entries_cons (hab : a < b) :
    ledger.entries a b = ledger.entry a :: ledger.entries (a + 1) b := by
  rw [← entries_append (Nat.le_succ a) hab]
  simp [entries]

/-- A run is what its numbers carry. -/
theorem entries_congr {ledger' : Ledger} (h : ∀ i, a ≤ i → i < b → ledger i = ledger' i) :
    ledger.entries a b = ledger'.entries a b := by
  unfold entries
  refine List.map_congr_left ?_
  intro i hi
  rw [List.mem_range'_1] at hi
  rw [entry, entry, h i hi.1 (by omega)]

theorem fits_of_mem (hfits : ledger.Fits) {e : Entry} (h : e ∈ ledger.entries a b) : e.Fits := by
  obtain ⟨i, -, rfl⟩ := List.mem_map.1 h
  exact hfits i

theorem take_entries {k : Nat} (h : a + k ≤ b) :
    (ledger.entries a b).take k = ledger.entries a (a + k) := by
  rw [← entries_append (Nat.le_add_right a k) h, List.take_left' (by simp)]

/-! ### Runs of frames -/

@[simp] theorem frames_self : ledger.frames a a = [] := by simp [frames]

theorem frames_append (hab : a ≤ b) (hbc : b ≤ c) :
    ledger.frames a b ++ ledger.frames b c = ledger.frames a c := by
  rw [frames, frames, frames, ← Entry.encodeAll_append, entries_append hab hbc]

theorem frames_succ (hab : a ≤ b) :
    ledger.frames a (b + 1) = ledger.frames a b ++ (ledger.entry b).encode := by
  rw [frames, entries_succ hab, Entry.encodeAll_append]
  simp [frames]

theorem frames_cons (hab : a < b) :
    ledger.frames a b = (ledger.entry a).encode ++ ledger.frames (a + 1) b := by
  rw [frames, entries_cons hab, Entry.encodeAll_cons, frames]

/-! ### What is read off a run -/

theorem toNat_sequence (ledger : Ledger) (h : i < UInt64.size) :
    (ledger.entry i).sequence.toNat = i :=
  UInt64.toNat_ofNat_of_lt h

/-- The greatest number of a run is its last one's. -/
theorem foldl_greater (hab : a ≤ b) (hb : b + 1 < UInt64.size) :
    (ledger.entries a (b + 1)).foldl
        (fun best entry => SegmentReader.greater best entry.sequence) none =
      some (UInt64.ofNat b) := by
  induction hab with
  | refl =>
      rw [entries_succ (Nat.le_refl a), entries_self]
      rfl
  | @step b hab ih =>
      have hb' : b + 1 < UInt64.size := Nat.lt_of_succ_lt hb
      -- The last entry's number is greater than that of the one before it.
      have hle : UInt64.ofNat b ≤ (ledger.entry (b + 1)).sequence := by
        have hself : (UInt64.ofNat b).toNat = b := UInt64.toNat_ofNat_of_lt (by omega)
        rw [UInt64.le_iff_toNat_le, hself, ledger.toNat_sequence hb']
        exact Nat.le_succ b
      rw [entries_succ (Nat.le_succ_of_le hab), List.foldl_append, ih hb']
      exact congrArg some (if_pos hle)

/-- The entries of a run that are not below a number. -/
theorem dropWhile_entries (hab : a ≤ b) (hbc : b ≤ c) (hc : c < UInt64.size) :
    (ledger.entries a c).dropWhile (fun entry => entry.sequence < UInt64.ofNat b) =
      ledger.entries b c := by
  have hb : (UInt64.ofNat b).toNat = b := UInt64.toNat_ofNat_of_lt (by omega)
  induction hd : b - a generalizing a with
  | zero =>
      obtain rfl : a = b := by omega
      rcases Nat.eq_or_lt_of_le hbc with rfl | hlt
      · simp
      · rw [entries_cons hlt, List.dropWhile_cons_of_neg]
        simp [UInt64.lt_iff_toNat_lt, ledger.toNat_sequence (i := a) (by omega), hb]
  | succ d ih =>
      have ha := ledger.toNat_sequence (i := a) (by omega)
      rw [entries_cons (by omega), List.dropWhile_cons_of_pos, ih (by omega) (by omega)]
      simp only [UInt64.lt_iff_toNat_lt, decide_eq_true_eq]
      omega

/-- The entries of a run that are numbered from `b` on. -/
theorem filter_entries (ledger : Ledger) (hab : a ≤ b) (hbc : b ≤ c) (hc : c < UInt64.size) :
    (ledger.entries a c).filter (fun entry => UInt64.ofNat b ≤ entry.sequence) =
      ledger.entries b c := by
  have hb : (UInt64.ofNat b).toNat = b := UInt64.toNat_ofNat_of_lt (by omega)
  have hnumber {i : Nat} (hi : i < c) : UInt64.ofNat b ≤ (ledger.entry i).sequence ↔ b ≤ i := by
    rw [UInt64.le_iff_toNat_le, hb, ledger.toNat_sequence (by omega)]
  -- None before `b` stays, and each from there on does.
  rw [← entries_append hab hbc, List.filter_append, List.filter_eq_nil_iff.2, List.nil_append,
    List.filter_eq_self.2]
  · intro e he
    obtain ⟨i, hi, rfl⟩ := List.mem_map.1 he
    rw [List.mem_range'_1] at hi
    rw [decide_eq_true_eq, hnumber (by omega)]
    exact hi.1
  · intro e he
    obtain ⟨i, hi, rfl⟩ := List.mem_map.1 he
    rw [List.mem_range'_1] at hi
    rw [decide_eq_true_eq, hnumber (by omega)]
    omega

end Ledger

/-! ### Frames that were cut off -/

/-- How many of the entries have their whole frames within `size` octets. -/
def wholeFrames : List Entry → (size : Nat) → Nat
  | [], _ => 0
  | entry :: entries, size =>
    if entry.encodedLength ≤ size then wholeFrames entries (size - entry.encodedLength) + 1 else 0

theorem wholeFrames_le (entries : List Entry) (size : Nat) :
    wholeFrames entries size ≤ entries.length := by
  induction entries generalizing size with
  | nil => exact Nat.le_refl 0
  | cons entry entries ih =>
      unfold wholeFrames
      split
      · exact Nat.succ_le_succ (ih _)
      · exact Nat.zero_le _

/-- Wherever the frames of entries are cut, what is left are whole frames and a torn one. -/
theorem exists_torn_of_prefix {entries : List Entry} {data : Bytes}
    (hfits : ∀ entry ∈ entries, entry.Fits) (h : data <+: Entry.encodeAll entries) :
    ∃ tail, Frame.Torn tail ∧
      data = Entry.encodeAll (entries.take (wholeFrames entries data.length)) ++ tail := by
  induction entries generalizing data with
  | nil => exact ⟨[], Frame.torn_nil, List.prefix_nil.1 h⟩
  | cons entry entries ih =>
      have hentry : entry.Fits := hfits entry List.mem_cons_self
      rw [Entry.encodeAll_cons] at h
      unfold wholeFrames
      split
      · next hle =>
        -- The first frame is whole, so that the cut is in the others.
        obtain ⟨rest, rfl⟩ : ∃ rest, data = entry.encode ++ rest := by
          obtain ⟨behind, hbehind⟩ := h
          refine ⟨data.drop entry.encodedLength, ?_⟩
          have htake := congrArg (List.take entry.encodedLength) hbehind
          rw [List.take_append_of_le_length hle, List.take_left' (Entry.length_encode entry)]
            at htake
          rw [← htake, List.take_append_drop]
        have hrest : rest <+: Entry.encodeAll entries := (List.prefix_append_right_inj _).1 h
        obtain ⟨tail, htail, heq⟩ := ih (fun e he => hfits e (List.mem_cons_of_mem _ he)) hrest
        refine ⟨tail, htail, ?_⟩
        have hlen : (entry.encode ++ rest).length - entry.encodedLength = rest.length := by simp
        rw [hlen, List.take_succ_cons, Entry.encodeAll_cons, List.append_assoc, ← heq]
      · next hlt =>
        refine ⟨data, ⟨entry, hentry, ?_, by omega⟩, rfl⟩
        exact List.prefix_of_prefix_length_le h (List.prefix_append _ _)
          (by rw [Entry.length_encode]; omega)

end SegmentedJournal
