/-!
# Bytes

Octet strings, and numbers written into them with the least significant octet first.

A number takes a fixed count of octets, the width.  Writing keeps the number up to the width's
modulus (`toNat_ofNat`), and an octet string is what its own number writes at its own length
(`ofNat_toNat`), so at one width the two directions are inverse.
-/

namespace SegmentedJournal

/-- A string of octets. -/
abbrev Bytes := List UInt8

namespace Bytes

/-- The lowest `width` octets of `n`, least significant first. -/
def ofNat : (width : Nat) → (n : Nat) → Bytes
  | 0, _ => []
  | width + 1, n => UInt8.ofNat n :: ofNat width (n / 256)

/-- The number whose octets, least significant first, are these. -/
def toNat : Bytes → Nat
  | [] => 0
  | octet :: rest => octet.toNat + 256 * toNat rest

/-- Whether there are at least `count` octets; no more than these are looked at. -/
def reaches : (count : Nat) → Bytes → Bool
  | 0, _ => true
  | _ + 1, [] => false
  | count + 1, _ :: rest => reaches count rest

@[simp] theorem reaches_iff (count : Nat) (bytes : Bytes) :
    reaches count bytes = true ↔ count ≤ bytes.length := by
  fun_induction reaches count bytes with
  | case1 => simp
  | case2 => simp
  | case3 _ _ _ ih => simp [ih]

@[simp] theorem length_ofNat (width n : Nat) : (ofNat width n).length = width := by
  induction width generalizing n with
  | zero => rfl
  | succ width ih => simp [ofNat, ih]

theorem toNat_lt (bytes : Bytes) : toNat bytes < Nat.pow 256 bytes.length := by
  induction bytes with
  | nil => simp [toNat]
  | cons octet rest ih =>
    have := octet.toNat_lt
    have hpow : Nat.pow 256 (rest.length + 1) = Nat.pow 256 rest.length * 256 := rfl
    simp only [toNat, List.length_cons]
    omega

theorem toNat_ofNat (width n : Nat) : toNat (ofNat width n) = n % Nat.pow 256 width := by
  induction width generalizing n with
  | zero => simp [ofNat, toNat, Nat.mod_one]
  | succ width ih =>
    simp only [ofNat, toNat, ih, UInt8.toNat_ofNat']
    have hpow : Nat.pow 256 (width + 1) = 256 * Nat.pow 256 width := Nat.mul_comm ..
    rw [hpow, Nat.mod_mul]

theorem ofNat_toNat (bytes : Bytes) : ofNat bytes.length (toNat bytes) = bytes := by
  induction bytes with
  | nil => rfl
  | cons octet rest ih =>
    have hdiv : (octet.toNat + 256 * toNat rest) / 256 = toNat rest := by
      have := octet.toNat_lt
      omega
    simp only [List.length_cons, toNat, ofNat, hdiv, ih, List.cons.injEq, and_true]
    apply UInt8.toNat_inj.1
    have := octet.toNat_lt
    simp only [UInt8.toNat_ofNat']
    omega

end Bytes

end SegmentedJournal
