import SegmentedJournal.Entry
import SegmentedJournal.Json.Record
/-!
# Entries — documents

An entry as a JSON document: its sequence number, and its payload as a list of octets.  Neither
may be left out.
-/

namespace SegmentedJournal.Entry

/-- An entry of which parts are still absent. -/
structure Draft where
  /-- The sequence number. -/
  sequence : Option UInt64 := none
  /-- The payload. -/
  payload : Option Bytes := none

/-- The parts of an entry, each under the name that documents use. -/
def fields : List (Json.Field Draft) :=
  [{ name := "sequence_number"
     isRead := fun draft => draft.sequence.isSome
     read := fun draft input => (Json.readNat UInt64.size input).map fun (n, rest) =>
       ({ draft with sequence := some (UInt64.ofNat n) }, rest) },
   { name := "payload"
     isRead := fun draft => draft.payload.isSome
     read := fun draft input => (Json.readList (Json.readNat 256) input).map fun (octets, rest) =>
       ({ draft with payload := some (octets.map UInt8.ofNat) }, rest) }]

/-- The entry of a draft, if nothing is absent. -/
def ofDraft (draft : Draft) : Except Json.Problem Entry :=
  match draft.sequence, draft.payload with
  | some sequence, some payload => .ok ⟨sequence, payload⟩
  | _, _ => .error .unfit

/-- The entry in a document. -/
def ofDocument (text : String) : Except Json.Problem Entry :=
  Json.readDocument fields {} ofDraft text

/-- The document that holds an entry, without blanks. -/
def toDocument (entry : Entry) : String :=
  "\x7b\"sequence_number\":" ++ toString entry.sequence.toNat ++ ",\"payload\":[" ++
    ",".intercalate (entry.payload.map fun octet => toString octet.toNat) ++ "]\x7d"

end SegmentedJournal.Entry
