import SegmentedJournal.Bytes
/-!
# Checksum

The 32-bit cyclic redundancy check of IEEE 802.3, with bits taken least significant first.

A register is divided one bit at a time by the polynomial (`shiftBit`); an octet is mixed into the
low end and shifted out (`mix`).  What runs looks eight divisions up at once, in a table of their
outcomes for each octet; `lookupMix_eq_mix` says that this is the same step, because the division
is linear over exclusive or (`shift_xor`).
-/

namespace SegmentedJournal.Checksum

/-- The generator polynomial, lowest bit for the highest power. -/
def polynomial : UInt32 := 0xEDB88320

/-- One step of the division: the lowest bit leaves, and the polynomial is subtracted if it was
set. -/
def shiftBit (register : UInt32) : UInt32 :=
  if register &&& 1 = 1 then (register >>> 1) ^^^ polynomial else register >>> 1

/-- `count` steps of the division. -/
def shift : (count : Nat) → (register : UInt32) → UInt32
  | 0, register => register
  | count + 1, register => shift count (shiftBit register)

/-- The register after one more octet. -/
def mix (register : UInt32) (octet : UInt8) : UInt32 :=
  shift 8 (register ^^^ octet.toUInt32)

/-! ### Linearity -/

theorem and_one_eq_zero_or_one (r : UInt32) : r &&& 1 = 0 ∨ r &&& 1 = 1 := by
  have h : (r &&& 1).toNat = r.toNat % 2 := by simp [Nat.and_one_is_mod]
  rcases Nat.mod_two_eq_zero_or_one r.toNat with h0 | h1
  · left; apply UInt32.toNat_inj.1; simp [h, h0]
  · right; apply UInt32.toNat_inj.1; simp [h, h1]

theorem shiftBit_xor (a b : UInt32) : shiftBit (a ^^^ b) = shiftBit a ^^^ shiftBit b := by
  have hand : (a ^^^ b) &&& 1 = (a &&& 1) ^^^ (b &&& 1) := by
    apply UInt32.toBitVec_inj.1
    ext i
    simp only [UInt32.toBitVec_and, UInt32.toBitVec_xor, BitVec.getElem_and, BitVec.getElem_xor]
    exact Bool.and_xor_distrib_right ..
  have hshr : (a ^^^ b) >>> 1 = (a >>> 1) ^^^ (b >>> 1) := UInt32.shiftRight_xor
  have cancel (p x y : UInt32) : (x ^^^ p) ^^^ (y ^^^ p) = x ^^^ y := by
    rw [UInt32.xor_assoc, UInt32.xor_comm y p, ← UInt32.xor_assoc p p y, UInt32.xor_self,
      UInt32.zero_xor]
  unfold shiftBit
  rcases and_one_eq_zero_or_one a with ha | ha <;> rcases and_one_eq_zero_or_one b with hb | hb <;>
    rw [hand, hshr, ha, hb]
  · rfl
  · simp only [UInt32.zero_xor, ↓reduceIte, UInt32.xor_assoc]; simp
  · simp only [UInt32.xor_zero, ↓reduceIte, UInt32.xor_assoc, UInt32.xor_comm polynomial]; simp
  · simp [cancel]

theorem shift_xor (count : Nat) (a b : UInt32) :
    shift count (a ^^^ b) = shift count a ^^^ shift count b := by
  induction count generalizing a b with
  | zero => rfl
  | succ count ih => rw [shift, shift, shift, shiftBit_xor, ih]

/-- Zeros at the low end are shifted out without touching the rest. -/
theorem toNat_shift_of_dvd (count : Nat) (r : UInt32) (h : 1 <<< count ∣ r.toNat) :
    (shift count r).toNat = r.toNat >>> count := by
  rw [Nat.one_shiftLeft] at h
  rw [Nat.shiftRight_eq_div_pow]
  induction count generalizing r with
  | zero => simp [shift]
  | succ count ih =>
    obtain ⟨k, hk⟩ := h
    have hpow : 2 ^ (count + 1) * k = 2 * (2 ^ count * k) := by
      rw [Nat.pow_succ, Nat.mul_comm (2 ^ count) 2, Nat.mul_assoc]
    have hbit : r &&& 1 = 0 := by
      apply UInt32.toNat_inj.1
      simp [Nat.and_one_is_mod, hk, hpow]
    have hstep : (shiftBit r).toNat = 2 ^ count * k := by
      simp [shiftBit, hbit, hk, hpow, Nat.shiftRight_eq_div_pow]
    rw [shift, ih _ ⟨k, hstep⟩, hstep, hk, Nat.mul_div_cancel_left _ (Nat.two_pow_pos _),
      Nat.mul_div_cancel_left _ (Nat.two_pow_pos _)]

/-! ### The table -/

/-- The outcome of eight divisions, for each octet. -/
def table : Array UInt32 := Array.ofFn fun octet : Fin 256 => shift 8 octet.val.toUInt32

/-- The register after one more octet, by one look into the table. -/
@[inline] def lookupMix (register : UInt32) (octet : UInt8) : UInt32 :=
  (register >>> 8) ^^^ table.getD (register.toUInt8 ^^^ octet).toNat 0

theorem table_getD (octet : UInt8) : table.getD octet.toNat 0 = shift 8 octet.toUInt32 := by
  have h := octet.toNat_lt
  simp only [table, Array.getD_eq_getD_getElem?, Array.getElem?_ofFn]
  rw [dif_pos (by omega)]
  simp only [Option.getD_some]
  congr 1
  exact UInt32.toNat_inj.1 (by simp)

/-- A register is its low octet and the rest. -/
theorem low_xor_high (r : UInt32) : r.toUInt8.toUInt32 ^^^ ((r >>> 8) <<< 8) = r := by
  apply UInt32.toBitVec_inj.1
  have hlow : r.toUInt8.toUInt32.toBitVec = (r.toBitVec.setWidth 8).setWidth 32 := rfl
  have hhigh : ((r >>> 8) <<< 8).toBitVec = (r.toBitVec >>> 8) <<< 8 := rfl
  rw [UInt32.toBitVec_xor, hlow, hhigh]
  ext i hi
  by_cases h : i < 8 <;>
    simp only [BitVec.getElem_xor, BitVec.getElem_setWidth, BitVec.getLsbD_setWidth,
      BitVec.getElem_shiftLeft, BitVec.getElem_ushiftRight, h]
  · simp [BitVec.getLsbD_eq_getElem hi]
  · simp [show 8 + (i - 8) = i by omega, BitVec.getLsbD_eq_getElem hi]

/-- What is above the low octet only moves down. -/
theorem shift_high (r : UInt32) : shift 8 ((r >>> 8) <<< 8) = r >>> 8 := by
  have h : ((r >>> 8) <<< 8).toNat = 1 <<< 8 * (r.toNat / 256) := by
    have := r.toNat_lt
    simp [Nat.shiftRight_eq_div_pow, Nat.shiftLeft_eq]
    omega
  apply UInt32.toNat_inj.1
  rw [toNat_shift_of_dvd 8 _ ⟨_, h⟩, h]
  simp [Nat.shiftRight_eq_div_pow]

theorem lookupMix_eq_mix (register : UInt32) (octet : UInt8) :
    lookupMix register octet = mix register octet := by
  have hsplit : register ^^^ octet.toUInt32 =
      (register.toUInt8 ^^^ octet).toUInt32 ^^^ ((register >>> 8) <<< 8) := by
    conv => lhs; rw [← low_xor_high register]
    rw [UInt8.toUInt32_xor]
    ac_rfl
  rw [lookupMix, table_getD, mix, hsplit, shift_xor, shift_high, UInt32.xor_comm]

/-- The checksum of an octet string. -/
def ofBytes (bytes : Bytes) : UInt32 :=
  bytes.foldl lookupMix 0xFFFFFFFF ^^^ 0xFFFFFFFF

theorem ofBytes_eq (bytes : Bytes) : ofBytes bytes = bytes.foldl mix 0xFFFFFFFF ^^^ 0xFFFFFFFF := by
  have h : lookupMix = mix := by funext register octet; exact lookupMix_eq_mix register octet
  rw [ofBytes, h]

end SegmentedJournal.Checksum
