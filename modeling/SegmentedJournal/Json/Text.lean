import SegmentedJournal.Json.Reader
/-!
# Json — strings

Strings whose opening quote is already taken: their octets (`readString`), or only what follows
them (`skipString`).  A string that is only passed over is not decoded, so its escapes by number
need not make sense as surrogate pairs.
-/

namespace SegmentedJournal.Json

/-- The character an escape of one letter stands for. -/
def letterEscape? (b : UInt8) : Option UInt8 :=
  if b = octet '"' || b = octet '\\' || b = octet '/' then some b
  else if b = octet 'b' then some 0x08
  else if b = octet 'f' then some 0x0c
  else if b = octet 'n' then some 0x0a
  else if b = octet 'r' then some 0x0d
  else if b = octet 't' then some 0x09
  else none

/-- The value of a hexadecimal digit. -/
def hexValue? (b : UInt8) : Option Nat :=
  if isDigit b then some (digit b)
  else if octet 'a' ≤ b && b ≤ octet 'f' then some ((b - octet 'a').toNat + 10)
  else if octet 'A' ≤ b && b ≤ octet 'F' then some ((b - octet 'A').toNat + 10)
  else none

/-- The number in the four hexadecimal digits of an escape. -/
def readUnit : Reader Nat
  | a :: b :: c :: d :: rest =>
    match hexValue? a, hexValue? b, hexValue? c, hexValue? d with
    | some a, some b, some c, some d => .ok (((a * 16 + b) * 16 + c) * 16 + d, rest)
    | _, _, _, _ => .error .malformed
  | _ => .error .ended

/-- The code point of an escape by number: one unit, or the two units of a surrogate pair. -/
def readCodePoint : Reader Nat := fun input =>
  match readUnit input with
  | .error problem => .error problem
  | .ok (high, rest) =>
    if 0xdc00 ≤ high && high ≤ 0xdfff then .error .malformed
    else if high < 0xd800 || 0xdbff < high then .ok (high, rest)
    else
      match skipWord ['\\', 'u'] rest with
      | .error problem => .error problem
      | .ok rest =>
        match readUnit rest with
        | .error problem => .error problem
        | .ok (low, rest) =>
          if low < 0xdc00 || 0xdfff < low then .error .malformed
          else .ok (0x10000 + (high - 0xd800) * 0x400 + (low - 0xdc00), rest)

/-- The octets of a code point. -/
def encodeCodePoint (n : Nat) : Bytes :=
  (String.singleton (Char.ofNat n)).toUTF8.toList

theorem length_lt_of_readUnit {input rest : Bytes} {n : Nat}
    (h : readUnit input = .ok (n, rest)) : rest.length < input.length := by
  unfold readUnit at h
  split at h
  · split at h
    · cases h
      simp only [List.length_cons]
      omega
    · contradiction
  · contradiction

theorem length_lt_of_readCodePoint {input rest : Bytes} {n : Nat}
    (h : readCodePoint input = .ok (n, rest)) : rest.length < input.length := by
  unfold readCodePoint at h
  split at h
  · contradiction
  · next hunit =>
    have hhigh := length_lt_of_readUnit hunit
    split at h
    · contradiction
    · split at h
      · rw [Except.ok.injEq, Prod.mk.injEq] at h
        exact h.2 ▸ hhigh
      · split at h
        · contradiction
        · next hword =>
          have hle := length_le_of_skipWord hword
          split at h
          · contradiction
          · next hlow =>
            have hlt := length_lt_of_readUnit hlow
            split at h
            · contradiction
            · rw [Except.ok.injEq, Prod.mk.injEq] at h
              exact h.2 ▸ Nat.lt_trans (Nat.lt_of_lt_of_le hlt hle) hhigh

/-- A string whose opening quote is already taken; `front` holds the octets read so far, last
first. -/
def readQuoted (front : Bytes) (input : Bytes) : Except Problem (Bytes × Bytes) :=
  match input with
  | [] => .error .ended
  | b :: rest =>
    if b = octet '"' then .ok (front.reverse, rest)
    else if b = octet '\\' then
      match rest with
      | [] => .error .ended
      | e :: rest =>
        match letterEscape? e with
        | some c => readQuoted (c :: front) rest
        | none =>
          if e = octet 'u' then
            match h : readCodePoint rest with
            | .error problem => .error problem
            | .ok (n, after) =>
              have := length_lt_of_readCodePoint h
              readQuoted ((encodeCodePoint n).reverse ++ front) after
          else .error .malformed
    else if b < 0x20 then .error .malformed
    else readQuoted (b :: front) rest
termination_by input.length

/-- The octets of a string whose opening quote is already taken. -/
def readString : Reader Bytes :=
  readQuoted []

/-- The input after a string whose opening quote is already taken. -/
def skipString (input : Bytes) : Except Problem Bytes :=
  match input with
  | [] => .error .ended
  | b :: rest =>
    if b = octet '"' then .ok rest
    else if b = octet '\\' then
      match rest with
      | [] => .error .ended
      | e :: rest =>
        if (letterEscape? e).isSome then skipString rest
        else if e = octet 'u' then
          match h : readUnit rest with
          | .error problem => .error problem
          | .ok (_, after) =>
            have := length_lt_of_readUnit h
            skipString after
        else .error .malformed
    else if b < 0x20 then .error .malformed
    else skipString rest
termination_by input.length

theorem length_lt_of_skipString {input rest : Bytes} (h : skipString input = .ok rest) :
    rest.length < input.length := by
  fun_induction skipString input <;> grind [length_lt_of_readUnit]

end SegmentedJournal.Json
