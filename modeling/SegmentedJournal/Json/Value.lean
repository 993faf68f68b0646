import SegmentedJournal.Json.Number
import SegmentedJournal.Json.Text
/-!
# Json — values of a known type

Natural numbers, truth values and sequences, each read off the front of the input.  A value of
another type does not fit, unless it is not even well formed (`mismatch`).
-/

namespace SegmentedJournal.Json

/-- What is wrong with a value of another type than the one asked for, at the front of the
input: a value that is not even well formed is reported as such. -/
def mismatch (input : Bytes) : Problem :=
  let outcome : Except Problem Unit :=
    match input with
    | [] => .error .malformed
    | b :: rest =>
      if b = octet 'n' then (skipWord ['u', 'l', 'l'] rest).map fun _ => ()
      else if b = octet 't' then (skipWord ['r', 'u', 'e'] rest).map fun _ => ()
      else if b = octet 'f' then (skipWord ['a', 'l', 's', 'e'] rest).map fun _ => ()
      else if b = octet '-' then (readNumber true rest).map fun _ => ()
      else if isDigit b then (readNumber false input).map fun _ => ()
      else if b = octet '"' then (readString rest).map fun _ => ()
      else if b = octet '[' || b = octet '\x7b' then .ok ()
      else .error .malformed
  match outcome with
  | .ok () => .unfit
  | .error problem => problem

/-- A natural number below `bound`. -/
def readNat (bound : Nat) (input : Bytes) : Except Problem (Nat × Bytes) := do
  let input := skipBlanks input
  let (number, rest) ←
    match input with
    | [] => throw .ended
    | b :: rest =>
      if b = octet '-' then readNumber true rest
      else if isDigit b then readNumber false input
      else throw (mismatch input)
  match number with
  | some n => if n < bound then return (n, rest) else throw .unfit
  | none => throw .unfit

/-- A truth value. -/
def readBool (input : Bytes) : Except Problem (Bool × Bytes) :=
  let input := skipBlanks input
  match input with
  | [] => .error .ended
  | b :: rest =>
    if b = octet 't' then (skipWord ['r', 'u', 'e'] rest).map fun rest => (true, rest)
    else if b = octet 'f' then (skipWord ['a', 'l', 's', 'e'] rest).map fun rest => (false, rest)
    else .error (mismatch input)

/-! ### Sequences -/

/-- Whether another element of a sequence follows; its separator is taken.  The closing bracket
stays. -/
def nextElement? (first : Bool) (input : Bytes) : Except Problem (Bool × Bytes) :=
  let input := skipBlanks input
  match input with
  | [] => .error .ended
  | b :: rest =>
    if b = octet ']' then .ok (false, input)
    else if first then .ok (true, input)
    else if b = octet ',' then
      match skipBlanks rest with
      | [] => .error .ended
      | c :: after => if c = octet ']' then .error .malformed else .ok (true, c :: after)
    else .error .malformed

/-- The input after the bracket that closes a sequence. -/
def closeSequence (input : Bytes) : Except Problem Bytes :=
  match skipBlanks input with
  | [] => .error .ended
  | b :: rest => if b = octet ']' then .ok rest else .error .malformed

/-- The elements up to the closing bracket, of which there are fewer than `fuel`; `front` holds
those read so far, last first. -/
def readElements {α : Type} (element : Reader α) :
    (fuel : Nat) → (front : List α) → (first : Bool) → Reader (List α)
  | 0, _, _, _ => .error .ended
  | fuel + 1, front, first, input => do
    let (more, rest) ← nextElement? first input
    if more then
      let (a, rest) ← element rest
      readElements element fuel (a :: front) false rest
    else
      let rest ← closeSequence rest
      return (front.reverse, rest)

/-- A sequence. -/
def readList {α : Type} (element : Reader α) (input : Bytes) :
    Except Problem (List α × Bytes) :=
  let input := skipBlanks input
  match input with
  | [] => .error .ended
  | b :: rest =>
    if b = octet '[' then readElements element (rest.length + 1) [] true rest
    else .error (mismatch input)

end SegmentedJournal.Json
