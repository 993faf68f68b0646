import SegmentedJournal.Path
/-!
# Segments

A segment is one file of the journal: a run of entries, or a checkpoint that stands for them.  It
covers the sequence numbers from its start up to, and without, its stop.  The log still being
written has no known stop and carries the number `unknownStop` in its place.

Segments are ordered by start, then stop, then location (`Segment.precedes`); the kind plays no
part in the order.
-/

namespace SegmentedJournal

/-- The stop of a log that is still being written. -/
def unknownStop : UInt64 := 0x7fffffffffffffff

/-- What a segment holds. -/
inductive SegmentKind where
  /-- A run of entries. -/
  | log
  /-- An image of everything the entries before its stop did. -/
  | checkpoint
deriving DecidableEq, Repr

/-- A file of the journal. -/
structure Segment where
  /-- The first sequence number covered. -/
  start : UInt64
  /-- One past the last sequence number covered. -/
  stop : UInt64
  /-- The path of the file. -/
  location : String
  /-- Log or checkpoint. -/
  kind : SegmentKind
deriving DecidableEq, Repr

namespace Segment

/-- Whether the segment is still being written. -/
def isIncomplete (segment : Segment) : Bool :=
  segment.stop = unknownStop

/-- Whether the segment covers a sequence number. -/
def covers (segment : Segment) (sequence : UInt64) : Bool :=
  segment.start ≤ sequence && sequence < segment.stop

/-- The name of the segment's file. -/
def name (segment : Segment) : String :=
  Path.fileName segment.location

/-- Whether `a` comes strictly before `b`. -/
def precedes (a b : Segment) : Bool :=
  a.start < b.start ||
    a.start = b.start && (a.stop < b.stop || a.stop = b.stop && a.location < b.location)

/-- The segments in order; of equals the one that stood first stays first. -/
def sorted (segments : List Segment) : List Segment :=
  segments.mergeSort fun a b => !b.precedes a

end Segment

end SegmentedJournal
