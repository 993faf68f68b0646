/-!
# Hexadecimal digits

Numbers written with a fixed count of lower-case digits, and read from digits of either case.
`parse?_padded` says that reading undoes writing as far as the count of digits reaches.
-/

namespace SegmentedJournal.Hex

/-- The digit for a value below sixteen. -/
def digit (value : Nat) : Char :=
  if value < 10 then Char.ofNat (48 + value) else Char.ofNat (87 + value)

/-- The value of a digit of either case. -/
def value? (c : Char) : Option Nat :=
  if '0' ≤ c ∧ c ≤ '9' then some (c.toNat - 48)
  else if 'a' ≤ c ∧ c ≤ 'f' then some (c.toNat - 87)
  else if 'A' ≤ c ∧ c ≤ 'F' then some (c.toNat - 55)
  else none

/-- The lowest `count` digits of `n`, most significant first. -/
def padded : (count : Nat) → (n : Nat) → List Char
  | 0, _ => []
  | count + 1, n => padded count (n / 16) ++ [digit (n % 16)]

/-- The number `n` followed by the digits `digits`. -/
def extend? (n : Nat) (digits : List Char) : Option Nat :=
  digits.foldlM (fun n c => (value? c).map (16 * n + ·)) n

/-- The number that a nonempty string of digits spells. -/
def parse? (digits : List Char) : Option Nat :=
  if digits.isEmpty then none else extend? 0 digits

@[simp] theorem length_padded (count n : Nat) : (padded count n).length = count := by
  induction count generalizing n with
  | zero => rfl
  | succ count ih => simp [padded, ih]

theorem value?_digit (v : Nat) (h : v < 16) : value? (digit v) = some v := by
  revert v
  decide

theorem extend?_append (n : Nat) (front rest : List Char) :
    extend? n (front ++ rest) = (extend? n front).bind (extend? · rest) := by
  simp [extend?, List.foldlM_append]

theorem extend?_padded (n m count : Nat) :
    extend? n (padded count m) = some (Nat.pow 16 count * n + m % Nat.pow 16 count) := by
  induction count generalizing m with
  | zero => simp [padded, extend?, Nat.mod_one]
  | succ count ih =>
    have hdigit : value? (digit (m % 16)) = some (m % 16) :=
      value?_digit _ (Nat.mod_lt _ (by decide))
    simp only [padded, extend?_append, ih, Option.bind_some]
    simp only [extend?, List.foldlM_cons, List.foldlM_nil, hdigit, Option.map_some]
    simp only [Option.bind_eq_bind, Option.bind_some, Option.pure_def, Option.some.injEq]
    have hpow : Nat.pow 16 (count + 1) = 16 * Nat.pow 16 count := Nat.mul_comm ..
    rw [hpow, Nat.mod_mul, Nat.mul_add, Nat.mul_assoc]
    omega

theorem parse?_padded (count n : Nat) (hcount : 0 < count) (hn : n < Nat.pow 16 count) :
    parse? (padded count n) = some n := by
  have hne : (padded count n).isEmpty = false := by
    rw [List.isEmpty_eq_false_iff, ← List.length_pos_iff, length_padded]
    exact hcount
  rw [parse?, hne, extend?_padded, Nat.mod_eq_of_lt hn]
  simp

end SegmentedJournal.Hex
