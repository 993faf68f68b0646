import SegmentedJournal.Json.Ignored
import SegmentedJournal.Json.Value
/-!
# Json — records

Reading a record from its JSON document.  The document is an object, whose fields may come in any
order, or an array of the fields in their order.  Fields the record does not have are passed over;
a field that is given twice, or that is missing and has no default, does not fit.

`R` is the record while it is being read: a record whose fields may still be absent.
-/

namespace SegmentedJournal.Json

/-- A field of the record `R`. -/
structure Field (R : Type) where
  /-- Its name in an object. -/
  name : String
  /-- Whether it has been read. -/
  isRead : R → Bool
  /-- Reads its value into the record. -/
  read : R → Reader R

/-- Reads the elements of an array into the fields, in order; an array that ends early leaves the
remaining fields absent. -/
def readPositional {R : Type} : (fields : List (Field R)) → (first : Bool) → R → Reader R
  | [], _, record, input => .ok (record, input)
  | field :: fields, first, record, input => do
    let (more, rest) ← nextElement? first input
    if more then
      let (record, rest) ← field.read record rest
      readPositional fields false record rest
    else return (record, rest)

/-- The input behind the opening quote of an object's next key, or nothing at the end of the
object; the closing brace stays. -/
def nextKey? (first : Bool) (input : Bytes) : Except Problem (Option Bytes × Bytes) :=
  let key (input : Bytes) : Except Problem (Option Bytes × Bytes) :=
    match input with
    | [] => .error .ended
    | b :: rest =>
      if b = octet '"' then (readString rest).map fun (name, rest) => (some name, rest)
      else .error .malformed
  match skipBlanks input with
  | [] => .error .ended
  | b :: rest =>
    if b = octet '\x7d' then .ok (none, b :: rest)
    else if first then key (b :: rest)
    else if b = octet ',' then key (skipBlanks rest)
    else .error .malformed

/-- Reads the fields of an object, of which there are fewer than `fuel`; the closing brace
stays. -/
def readNamed {R : Type} (fields : List (Field R)) : (fuel : Nat) → (first : Bool) → R → Reader R
  | 0, _, _, _ => .error .ended
  | fuel + 1, first, record, input => do
    match ← nextKey? first input with
    | (none, rest) => return (record, rest)
    | (some key, rest) =>
      match fields.find? fun field => field.name.toUTF8.toList = key with
      | none =>
        let rest ← skipValue (← skipColon rest)
        readNamed fields fuel false record rest
      | some field =>
        if field.isRead record then throw .unfit
        let (record, rest) ← field.read record (← skipColon rest)
        readNamed fields fuel false record rest

/-- The record in a document that holds nothing else.  `finish` settles the fields that are
absent. -/
def readDocument {R α : Type} (fields : List (Field R)) (blank : R)
    (finish : R → Except Problem α) (text : String) : Except Problem α := do
  let input := skipBlanks text.toUTF8.toList
  let (value, rest) ←
    match input with
    | [] => throw .ended
    | b :: rest =>
      if b = octet '[' then
        let (record, rest) ← readPositional fields true blank rest
        let value ← finish record
        pure (value, ← closeSequence rest)
      else if b = octet '\x7b' then
        let (record, rest) ← readNamed fields (rest.length + 1) true blank rest
        let value ← finish record
        pure (value, (skipBlanks rest).drop 1)
      else throw (mismatch input)
  if (skipBlanks rest).isEmpty then return value else throw .malformed

end SegmentedJournal.Json
