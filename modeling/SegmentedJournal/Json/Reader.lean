import SegmentedJournal.Bytes
/-!
# Json — readers

Reading JSON from the left and stopping at the first problem.  Problems are told apart by what
the reader had seen: text that is not JSON, text that ends too early, or a value that is well
formed so far and does not fit (`Problem`).

Input is the text's octets in UTF-8.  What is read off the front leaves the input shorter, or at
least no longer; loops over the input end for that reason.
-/

namespace SegmentedJournal.Json

/-- Why reading stopped. -/
inductive Problem where
  /-- The text is not JSON. -/
  | malformed
  /-- The text ends inside a value. -/
  | ended
  /-- A value has the wrong type or range, or a field is missing or given twice. -/
  | unfit
deriving DecidableEq, Repr

/-- A reader takes a value from the front of the input and leaves the rest. -/
abbrev Reader (α : Type) := Bytes → Except Problem (α × Bytes)

/-- The octet of an ASCII character. -/
def octet (c : Char) : UInt8 := c.toNat.toUInt8

/-- Whether an octet separates tokens. -/
def isBlank (b : UInt8) : Bool :=
  b = octet ' ' || b = octet '\n' || b = octet '\t' || b = octet '\r'

/-- The input without the blanks at its front. -/
def skipBlanks (input : Bytes) : Bytes :=
  input.dropWhile isBlank

/-- Whether an octet is a decimal digit. -/
def isDigit (b : UInt8) : Bool :=
  octet '0' ≤ b && b ≤ octet '9'

/-- The value of a decimal digit. -/
def digit (b : UInt8) : Nat :=
  (b - octet '0').toNat

/-- The input after a word that must stand at its front. -/
def skipWord : (word : List Char) → Bytes → Except Problem Bytes
  | [], input => .ok input
  | _ :: _, [] => .error .ended
  | c :: word, b :: input => if b = octet c then skipWord word input else .error .malformed

/-- The input after the colon between a key and its value. -/
def skipColon (input : Bytes) : Except Problem Bytes :=
  match skipBlanks input with
  | [] => .error .ended
  | b :: rest => if b = octet ':' then .ok rest else .error .malformed

/-! ### What is left is no longer -/

theorem length_dropWhile_le (p : UInt8 → Bool) :
    ∀ input : Bytes, (input.dropWhile p).length ≤ input.length
  | [] => Nat.le_refl _
  | b :: rest => by
    rw [List.dropWhile_cons]
    split
    · exact Nat.le_succ_of_le (length_dropWhile_le p rest)
    · exact Nat.le_refl _

/-- What follows the first octet that is no blank is shorter than the input. -/
theorem length_lt_of_skipBlanks {input rest : Bytes} {b : UInt8}
    (h : skipBlanks input = b :: rest) : rest.length < input.length := by
  have hle := length_dropWhile_le isBlank input
  rw [skipBlanks] at h
  rw [h] at hle
  exact hle

theorem length_le_of_skipWord {word : List Char} {input rest : Bytes}
    (h : skipWord word input = .ok rest) : rest.length ≤ input.length := by
  fun_induction skipWord word input with
  | case1 => exact Nat.le_of_eq (congrArg _ (Except.ok.inj h)).symm
  | case2 => contradiction
  | case3 c word input ih => exact Nat.le_succ_of_le (ih h)
  | case4 => contradiction

theorem length_lt_of_skipColon {input rest : Bytes} (h : skipColon input = .ok rest) :
    rest.length < input.length := by
  unfold skipColon at h
  grind [→ length_lt_of_skipBlanks]

end SegmentedJournal.Json
