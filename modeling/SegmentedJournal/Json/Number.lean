import SegmentedJournal.Json.Reader
/-!
# Json — numbers

Numbers whose sign is already taken.  Asked for, a number is a 64-bit word or it is no word
(`readNumber`); one that is no word must still be near some double precision number, and what
counts as near follows the steps a value is computed in: its leading digits as a word, rounded,
times a power of ten, rounded (`exceedsDouble`).  A number that is only passed over may have any
size (`skipNumber`).
-/

namespace SegmentedJournal.Json

/-! ### Digits -/

/-- Continues a word by digits while it stays below `2 ^ 64`; the digits left over stay. -/
def takeDigits : Nat → Bytes → Nat × Bytes
  | n, [] => (n, [])
  | n, b :: digits =>
    let next := 10 * n + digit b
    if next < UInt64.size then takeDigits next digits else (n, b :: digits)

theorem takeDigits_lt {n : Nat} (digits : Bytes) (h : n < UInt64.size) :
    (takeDigits n digits).1 < UInt64.size := by
  fun_induction takeDigits n digits with
  | case1 => exact h
  | case2 _ _ _ _ hnext ih => exact ih hnext
  | case3 => exact h

/-! ### Magnitudes -/

/-- The multiple of `unit` nearest to a number; of two as near, the even multiple. -/
def roundTo (unit n : Nat) : Nat :=
  let kept := n / unit
  let left := n % unit
  if unit < 2 * left || (unit = 2 * left && kept % 2 = 1) then (kept + 1) * unit else kept * unit

/-- The number of 53 significant bits nearest to a number. -/
def nearest (n : Nat) : Nat :=
  roundTo (1 <<< (n.log2 + 1 - 53)) n

/-- The least magnitude that no double precision number is near. -/
def doubleLimit : Nat := (1 <<< 1024) - (1 <<< 970)

/-- Whether a significand, followed by `exponent` zeros, is beyond double precision.  Powers of
ten beyond `10 ^ 308` are; a power below one brings no significand there. -/
def exceedsDouble (significand : Nat) (exponent : Int) : Bool :=
  significand ≠ 0 && 0 ≤ exponent &&
    (308 < exponent || doubleLimit ≤ nearest significand * nearest (Nat.pow 10 exponent.toNat))

theorem roundTo_one (n : Nat) : roundTo 1 n = n := by
  simp [roundTo, Nat.mod_one]

/-- A number of at most 53 bits is its own nearest. -/
theorem nearest_eq_self {n : Nat} (h : n < 1 <<< 53) : nearest n = n := by
  rw [Nat.one_shiftLeft] at h
  have hlog : n.log2 + 1 - 53 = 0 := by
    by_cases hn : n = 0
    · subst hn
      decide
    · have := (Nat.log2_lt hn).2 h
      omega
  rw [nearest, hlog, Nat.shiftLeft_zero, roundTo_one]

/-! ### Numbers asked for -/

/-- The exponent of a number, whose mark is already taken.  Of an exponent beyond a word the first
digits count: any significand but zero is as far out with them. -/
def readExponent : Reader Int := fun input =>
  let (negative, input) :=
    match input with
    | b :: rest =>
      if b = octet '-' then (true, rest) else if b = octet '+' then (false, rest)
      else (false, input)
    | [] => (false, input)
  match input with
  | [] => .error .ended
  | b :: _ =>
    if isDigit b then
      let n : Int := (takeDigits 0 (input.takeWhile isDigit)).1
      .ok (if negative then -n else n, input.dropWhile isDigit)
    else .error .malformed

/-- The rest of a number that is no word, once its significand and the power of ten it is counted
in are known. -/
def finishReal (significand : Nat) (shift : Int) : Reader (Option Nat) := fun input => do
  let (exponent, rest) ←
    match input with
    | b :: rest => if b = octet 'e' || b = octet 'E' then readExponent rest else pure (0, input)
    | [] => pure (0, input)
  if exceedsDouble significand (shift + exponent) then throw .malformed
  return (none, rest)

/-- The rest of a number behind its whole digits.  Whole digits that do not fit a word count as
zeros, and so many digits of the fraction are kept as still fit. -/
def finishNumber (negative : Bool) (digits : Bytes) : Reader (Option Nat) := fun input =>
  let (whole, beyond) := takeDigits 0 digits
  let integer : Except Problem (Option Nat × Bytes) :=
    if beyond.isEmpty then .ok (if negative then none else some whole, input)
    else finishReal whole beyond.length input
  match input with
  | [] => integer
  | b :: rest =>
    if b = octet '.' then
      let fraction := rest.takeWhile isDigit
      let after := rest.dropWhile isDigit
      if fraction.isEmpty then .error (if after.isEmpty then .ended else .malformed)
      else
        let (significand, dropped) := takeDigits whole fraction
        finishReal significand (beyond.length + dropped.length - fraction.length) after
    else if b = octet 'e' || b = octet 'E' then finishReal whole beyond.length input
    else integer

/-- A number whose sign is already taken: a 64-bit word if it is one, and nothing if it is
another number. -/
def readNumber (negative : Bool) : Reader (Option Nat) := fun input =>
  match input with
  | [] => .error .ended
  | b :: rest =>
    if b = octet '0' then
      match rest with
      | d :: _ => if isDigit d then .error .malformed else finishNumber negative [b] rest
      | [] => finishNumber negative [b] rest
    else if isDigit b then
      finishNumber negative (input.takeWhile isDigit) (input.dropWhile isDigit)
    else .error .malformed

/-! ### Numbers passed over -/

/-- The input after digits, of which there must be one. -/
def skipDigits (input : Bytes) : Except Problem Bytes :=
  match input with
  | b :: rest => if isDigit b then .ok (rest.dropWhile isDigit) else .error .malformed
  | [] => .error .malformed

/-- The input after the exponent of a number, if there is one. -/
def skipExponent (input : Bytes) : Except Problem Bytes :=
  match input with
  | b :: rest =>
    if b = octet 'e' || b = octet 'E' then
      match rest with
      | s :: after => if s = octet '+' || s = octet '-' then skipDigits after else skipDigits rest
      | [] => skipDigits rest
    else .ok input
  | [] => .ok input

/-- The input after a number's fraction and exponent, as far as it has them. -/
def skipFraction (input : Bytes) : Except Problem Bytes :=
  match input with
  | b :: rest =>
    if b = octet '.' then
      match skipDigits rest with
      | .error problem => .error problem
      | .ok rest => skipExponent rest
    else skipExponent input
  | [] => .ok input

/-- The input after a number whose sign is already taken. -/
def skipNumber (input : Bytes) : Except Problem Bytes :=
  match skipDigits input with
  | .error problem => .error problem
  | .ok rest =>
    if input.head? = some (octet '0') && (input.drop 1).head?.any isDigit then .error .malformed
    else skipFraction rest

theorem length_lt_of_skipDigits {input rest : Bytes} (h : skipDigits input = .ok rest) :
    rest.length < input.length := by
  unfold skipDigits at h
  grind [length_dropWhile_le]

theorem length_le_of_skipExponent {input rest : Bytes} (h : skipExponent input = .ok rest) :
    rest.length ≤ input.length := by
  unfold skipExponent at h
  grind [→ length_lt_of_skipDigits]

theorem length_le_of_skipFraction {input rest : Bytes} (h : skipFraction input = .ok rest) :
    rest.length ≤ input.length := by
  unfold skipFraction at h
  grind [→ length_lt_of_skipDigits, → length_le_of_skipExponent]

theorem length_lt_of_skipNumber {input rest : Bytes} (h : skipNumber input = .ok rest) :
    rest.length < input.length := by
  unfold skipNumber at h
  grind [→ length_lt_of_skipDigits, → length_le_of_skipFraction]

end SegmentedJournal.Json
