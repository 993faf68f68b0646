import SegmentedJournal.Json.Number
import SegmentedJournal.Json.Text
/-!
# Json — values nobody asked for

A value of any type, passed over (`skipValue`).  Its brackets are matched with a stack, however
deep, its numbers may have any size, and its strings are not decoded.
-/

namespace SegmentedJournal.Json

/-- A bracket that is still open. -/
inductive Bracket where
  | square | curly
deriving DecidableEq, Repr

/-- The octet that closes a bracket. -/
def Bracket.closing : Bracket → UInt8
  | square => octet ']'
  | curly => octet '\x7d'

/-- The input after a value that opens no bracket. -/
def skipScalar (input : Bytes) : Except Problem Bytes :=
  match input with
  | [] => .error .ended
  | b :: rest =>
    if b = octet 'n' then skipWord ['u', 'l', 'l'] rest
    else if b = octet 't' then skipWord ['r', 'u', 'e'] rest
    else if b = octet 'f' then skipWord ['a', 'l', 's', 'e'] rest
    else if b = octet '-' then skipNumber rest
    else if isDigit b then skipNumber input
    else if b = octet '"' then skipString rest
    else .error .malformed

/-- The input after the key of an object's field and its colon. -/
def skipKey (input : Bytes) : Except Problem Bytes :=
  match skipBlanks input with
  | [] => .error .ended
  | b :: rest =>
    if b = octet '"' then
      match skipString rest with
      | .error problem => .error problem
      | .ok rest => skipColon rest
    else .error .malformed

/-- The input after what stands before a value inside a bracket: its key, in an object. -/
def skipLabel : Bracket → Bytes → Except Problem Bytes
  | .square, input => .ok input
  | .curly, input => skipKey input

theorem length_lt_of_skipScalar {input rest : Bytes} (h : skipScalar input = .ok rest) :
    rest.length < input.length := by
  unfold skipScalar at h
  grind [→ length_le_of_skipWord, → length_lt_of_skipNumber, → length_lt_of_skipString]

theorem length_lt_of_skipKey {input rest : Bytes} (h : skipKey input = .ok rest) :
    rest.length < input.length := by
  unfold skipKey at h
  grind [→ length_lt_of_skipBlanks, → length_lt_of_skipString, → length_lt_of_skipColon]

theorem length_le_of_skipLabel {bracket : Bracket} {input rest : Bytes}
    (h : skipLabel bracket input = .ok rest) : rest.length ≤ input.length := by
  unfold skipLabel at h
  grind [→ length_lt_of_skipKey]

/-- What a reader of nested values stands in front of. -/
inductive Next where
  /-- A value. -/
  | value
  /-- What the bracket just opened holds: its first value, or nothing. -/
  | content
  /-- What follows a value: a closing bracket, or a separator and the next value. -/
  | separator
deriving DecidableEq, Repr

/-- The input after what is left of a value when the brackets `outer` are open, the innermost
first. -/
def skipNested (next : Next) (outer : List Bracket) (input : Bytes) : Except Problem Bytes :=
  match next, outer with
  | .value, outer =>
    match h : skipBlanks input with
    | [] => .error .ended
    | b :: rest =>
      have := length_lt_of_skipBlanks h
      if b = octet '[' then skipNested .content (.square :: outer) rest
      else if b = octet '\x7b' then skipNested .content (.curly :: outer) rest
      else
        match hscalar : skipScalar (b :: rest) with
        | .error problem => .error problem
        | .ok after =>
          have := length_lt_of_skipScalar hscalar
          skipNested .separator outer after
  | .content, bracket :: outer =>
    match h : skipBlanks input with
    | [] => .error .ended
    | b :: rest =>
      have := length_lt_of_skipBlanks h
      if b = bracket.closing then skipNested .separator outer rest
      else
        match hlabel : skipLabel bracket (b :: rest) with
        | .error problem => .error problem
        | .ok after =>
          have := length_le_of_skipLabel hlabel
          skipNested .value (bracket :: outer) after
  | .separator, bracket :: outer =>
    match h : skipBlanks input with
    | [] => .error .ended
    | b :: rest =>
      have := length_lt_of_skipBlanks h
      if b = bracket.closing then skipNested .separator outer rest
      else if b ≠ octet ',' then .error .malformed
      else
        match hlabel : skipLabel bracket rest with
        | .error problem => .error problem
        | .ok after =>
          have := length_le_of_skipLabel hlabel
          skipNested .value (bracket :: outer) after
  | _, [] => .ok input
termination_by (input.length, if next = .value then 0 else 1)
decreasing_by
  all_goals grind

/-- The input after a value of any type. -/
def skipValue (input : Bytes) : Except Problem Bytes :=
  skipNested .value [] input

end SegmentedJournal.Json
