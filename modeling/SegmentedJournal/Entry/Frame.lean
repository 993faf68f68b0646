import SegmentedJournal.Entry
import SegmentedJournal.Hex
/-!
# Entries — frames

Reading the frame at the start of an octet string.  A frame that declares a length outside the
limits, ends too early or fails its checksum is refused, and the refusal says which
(`FrameError`); the length is judged before the octets are counted, and the checksum last.

`Frame.decode` answers with the octets taken, so that the next frame starts there.
-/

namespace SegmentedJournal

/-- Why no entry could be read. -/
inductive FrameError where
  /-- The octets end before the frame does. -/
  | truncated (needed available : Nat)
  /-- No frame has this length. -/
  | badLength (length : Nat)
  /-- The octets are not those that were written. -/
  | checksumMismatch (stored computed : UInt32)
deriving DecidableEq, Repr

namespace FrameError

/-- The checksum as it is shown: eight digits after the mark of the base. -/
private def shown (checksum : UInt32) : String :=
  "0x" ++ String.ofList (Hex.padded 8 checksum.toNat)

/-- The text of the refusal. -/
def message : FrameError → String
  | truncated needed available =>
    s!"truncated frame: need {needed} bytes, have {available}"
  | badLength length => s!"invalid frame length {length}"
  | checksumMismatch stored computed =>
    "crc mismatch: stored " ++ shown stored ++ ", computed " ++ shown computed

end FrameError

namespace Frame

/-- The greatest length a frame may declare: 64 MiB. -/
def maxLength : Nat := 64 * 1024 * 1024

/-- The greatest payload that fits a frame. -/
def maxPayload : Nat := maxLength - 12

/-- The length that the first four octets declare: that of the frame after them. -/
def declaredLength (data : Bytes) : Nat :=
  Bytes.toNat (data.take 4)

/-- The checksum that a frame carries. -/
def storedChecksum (data : Bytes) : UInt32 :=
  UInt32.ofNat (Bytes.toNat ((data.drop 4).take 4))

/-- The part of a frame of `total` octets that its checksum covers. -/
def body (total : Nat) (data : Bytes) : Bytes :=
  (data.drop Entry.headerSize).take (total - Entry.headerSize)

/-- The entry in the checked part of a frame. -/
def entryOfBody (body : Bytes) : Entry :=
  ⟨UInt64.ofNat (Bytes.toNat (body.take Entry.sequenceSize)), body.drop Entry.sequenceSize⟩

/-- The entry whose frame of `total` octets starts these, if its checksum holds. -/
def decodeSized (total : Nat) (data : Bytes) : Except FrameError (Entry × Nat) :=
  let computed := Checksum.ofBytes (body total data)
  if storedChecksum data = computed then .ok (entryOfBody (body total data), total)
  else .error (.checksumMismatch (storedChecksum data) computed)

/-- The entry whose frame starts these octets, and how many of them it takes. -/
def decode (data : Bytes) : Except FrameError (Entry × Nat) :=
  if ¬ Bytes.reaches 4 data then .error (.truncated 4 data.length)
  else if declaredLength data < 4 + Entry.sequenceSize ∨ maxLength < declaredLength data then
    .error (.badLength (declaredLength data))
  else if ¬ Bytes.reaches (4 + declaredLength data) data then
    .error (.truncated (4 + declaredLength data) data.length)
  else decodeSized (4 + declaredLength data) data

/-- A frame takes at least its sixteen fixed octets, and no more than there are. -/
theorem le_of_decode {data : Bytes} {entry : Entry} {used : Nat}
    (h : decode data = .ok (entry, used)) : 16 ≤ used ∧ used ≤ data.length := by
  unfold decode at h
  split at h
  · cases h
  · split at h
    · cases h
    · split at h
      · cases h
      · unfold decodeSized at h
        simp only at h
        split at h
        · cases h
          simp only [Entry.sequenceSize, Bytes.reaches_iff] at *
          omega
        · cases h

end Frame

end SegmentedJournal
