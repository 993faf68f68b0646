import SegmentedJournal.Entry.Frame
import SegmentedJournal.Error
import SegmentedJournal.Medium.Instrumented
import SegmentedJournal.Segment
/-!
# Segments — reading

A reader holds what a segment's file held when it was opened, and takes entries off its front.  It
ends at the end of the file, and it stays where it is at octets that are no entry.

`SegmentReader.greatest?` reads on to the end or to such octets: the greatest sequence number on
the way is what a damaged log still proves to be there.
-/

namespace SegmentedJournal

/-- A reader of one segment. -/
structure SegmentReader where
  /-- The segment. -/
  segment : Segment
  /-- The octets not yet read. -/
  rest : Bytes
  /-- How many octets were read. -/
  position : Nat := 0
  /-- The sequence number of the last entry read. -/
  last? : Option UInt64 := none
deriving DecidableEq, Repr

namespace SegmentReader

/-- Opens a segment and reads its file. -/
def load {σ η : Type} [Storage σ η] (segment : Segment) :
    Action JournalError (Medium σ) SegmentReader := do
  let contents ← (Medium.openRead segment.location).mapError (.medium segment.location)
  let data ← Action.ofExcept (contents.mapError .io)
  return { segment, rest := data }

/-- The next entry and the reader behind it, or nothing at the end of the file. -/
def read (reader : SegmentReader) : Except JournalError (Option (Entry × SegmentReader)) :=
  if reader.rest.isEmpty then .ok none
  else
    match Frame.decode reader.rest with
    | .ok (entry, used) =>
      .ok (some (entry, { reader with
        rest := reader.rest.drop used
        position := reader.position + used
        last? := some entry.sequence }))
    | .error error =>
      .error (.invalidEntry reader.segment.location reader.position error.message)

theorem length_rest_of_read {reader next : SegmentReader} {entry : Entry}
    (h : reader.read = .ok (some (entry, next))) : next.rest.length < reader.rest.length := by
  unfold read at h
  split at h
  · cases h
  · split at h
    · next hdecode =>
      cases h
      have := Frame.le_of_decode hdecode
      simp only [List.length_drop]
      omega
    · cases h

/-- The greater of a number and one that may be absent. -/
def greater (best : Option UInt64) (sequence : UInt64) : Option UInt64 :=
  some (best.elim sequence fun known => max known sequence)

/-- The greatest of `best` and the sequence numbers of the entries that can still be read. -/
def greatestFrom (best : Option UInt64) (reader : SegmentReader) : Option UInt64 :=
  match _ : reader.read with
  | .ok (some (entry, next)) => greatestFrom (greater best entry.sequence) next
  | .ok none => best
  | .error _ => best
termination_by reader.rest.length
decreasing_by exact length_rest_of_read (by assumption)

/-- The greatest sequence number of the entries that can still be read. -/
def greatest? (reader : SegmentReader) : Option UInt64 :=
  reader.greatestFrom none

/-- The next entry that is not below a sequence number, and the reader behind it; the reader is
where it got to if there is none. -/
def seek (sequence : UInt64) (reader : SegmentReader) :
    Except JournalError (Option Entry) × SegmentReader :=
  match _ : reader.read with
  | .ok (some (entry, next)) =>
    if entry.sequence < sequence then seek sequence next else (.ok (some entry), next)
  | .ok none => (.ok none, reader)
  | .error error => (.error error, reader)
termination_by reader.rest.length
decreasing_by exact length_rest_of_read (by assumption)

end SegmentReader

end SegmentedJournal
