import SegmentedJournal.Hex
import SegmentedJournal.Segment
/-!
# Segments — names

A segment's file is named for what it covers: both numbers in hexadecimal, each behind its mark,
with a dash between.  Names are written with sixteen digits, so that they sort as their numbers
do, and read with any count of digits.
-/

namespace SegmentedJournal.Segment

/-- One number of a name, as it is written. -/
def encodeField (n : UInt64) : List Char :=
  '0' :: 'x' :: Hex.padded 16 n.toNat

/-- The name of a segment that covers `start` up to `stop`. -/
def encodeName (start stop : UInt64) : String :=
  String.ofList (encodeField start ++ '-' :: encodeField stop)

/-- The number that a field of a name spells, if it fits. -/
def decodeField? : List Char → Option UInt64
  | '0' :: 'x' :: digits =>
    (Hex.parse? digits).bind fun n => if n < UInt64.size then some (UInt64.ofNat n) else none
  | _ => none

/-- The characters before the first dash and those after it. -/
def splitAtDash? : List Char → Option (List Char × List Char)
  | [] => none
  | c :: rest =>
    if c = '-' then some ([], rest)
    else (splitAtDash? rest).map fun (front, back) => (c :: front, back)

/-- The numbers in a segment's name; anything else has none, nor does a range that is inverted or
ends beyond `unknownStop`. -/
def decodeName? (name : String) : Option (UInt64 × UInt64) := do
  let (front, back) ← splitAtDash? name.toList
  let start ← decodeField? front
  let stop ← decodeField? back
  if start ≤ stop ∧ stop ≤ unknownStop then some (start, stop) else none

/-- The segment at a path, if the path's last component is a segment's name. -/
def ofLocation? (kind : SegmentKind) (location : String) : Option Segment :=
  (decodeName? (Path.fileName location)).map fun (start, stop) => ⟨start, stop, location, kind⟩

end SegmentedJournal.Segment
