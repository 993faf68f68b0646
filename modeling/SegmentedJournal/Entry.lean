import SegmentedJournal.Checksum
/-!
# Entries

An entry is a sequence number and an opaque payload.  On the medium it is one frame:

* four octets: the count of the octets that follow them,
* four octets: the checksum of everything after itself,
* eight octets: the sequence number,
* the payload.

`Entry.encode` writes the frame without a limit on the payload; `SegmentedJournal.Entry.Frame`
reads one back, and knows the limit.
-/

namespace SegmentedJournal

/-- A journal entry. -/
structure Entry where
  /-- Its place in the journal. -/
  sequence : UInt64
  /-- What it carries; the journal never looks inside. -/
  payload : Bytes
deriving DecidableEq, Repr

namespace Entry

/-- Octets of a frame before its sequence number. -/
def headerSize : Nat := 8

/-- Octets of a frame's sequence number. -/
def sequenceSize : Nat := 8

/-- The part of a frame that its checksum covers. -/
def body (entry : Entry) : Bytes :=
  Bytes.ofNat sequenceSize entry.sequence.toNat ++ entry.payload

/-- Octets the entry takes on the medium. -/
def encodedLength (entry : Entry) : Nat :=
  headerSize + sequenceSize + entry.payload.length

/-- The frame of an entry. -/
def encode (entry : Entry) : Bytes :=
  Bytes.ofNat 4 (4 + sequenceSize + entry.payload.length) ++
    (Bytes.ofNat 4 (Checksum.ofBytes entry.body).toNat ++ entry.body)

/-- The frames of several entries, one after the other. -/
def encodeAll (entries : List Entry) : Bytes :=
  entries.flatMap encode

@[simp] theorem length_body (entry : Entry) :
    entry.body.length = sequenceSize + entry.payload.length := by
  simp [body]

@[simp] theorem length_encode (entry : Entry) : entry.encode.length = entry.encodedLength := by
  simp [encode, encodedLength, headerSize]
  omega

end Entry

end SegmentedJournal
