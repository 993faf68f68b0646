import SegmentedJournal.Journal.Snapshot
import SegmentedJournal.Segment.Reader
/-!
# Journals — the durable frontier

Where durable data ends.  After a failure the writer trusts nothing it has buffered and asks the
medium: the incomplete log holds entries up to its end, or up to octets that are no entry; without
such entries the stop of the last complete log counts, and that of the latest checkpoint, which may
be all that is left of older logs.

`Journal.probe` finds the frontier and changes nothing.  `Journal.sealAt` completes the incomplete
log there, or removes it if it has no entries, so that the next log can start right behind.
-/

namespace SegmentedJournal

/-- Where durable data ends. -/
structure Frontier where
  /-- The incomplete log. -/
  incomplete : Option Segment
  /-- The greatest sequence number in the incomplete log. -/
  lastInIncomplete : Option UInt64
  /-- The last durable sequence number. -/
  lastPersisted : Option UInt64
deriving DecidableEq, Repr

namespace Frontier

/-- The first sequence number that is not durable. -/
def next {ε σ : Type} (frontier : Frontier) : Action ε σ UInt64 :=
  match frontier.lastPersisted with
  | none => pure 0
  | some last => Action.successor last

/-- The last sequence number that a segment covers by its name. -/
def lastNamed? (segment : Segment) : Option UInt64 :=
  if segment.stop = 0 then none else some (segment.stop - 1)

/-- The greater of two numbers that may be absent. -/
def greater? : Option UInt64 → Option UInt64 → Option UInt64
  | some a, some b => some (max a b)
  | some a, none => some a
  | none, b => b

/-- The frontier of a snapshot, given the greatest sequence number in its current log. -/
def ofSnapshot (snapshot : Snapshot) (lastInIncomplete : Option UInt64) : Frontier :=
  { incomplete := snapshot.current
    lastInIncomplete
    lastPersisted := lastInIncomplete.or
      (greater? (snapshot.lastLog?.bind lastNamed?) (snapshot.latestCheckpoint?.bind lastNamed?)) }

end Frontier

namespace Journal

variable {σ η : Type} [Storage σ η]

/-- The greatest sequence number in a log. -/
def scan (segment : Segment) : Action JournalError (Medium σ) (Option UInt64) := do
  return (← SegmentReader.load segment).greatest?

/-- The frontier as the medium has it now. -/
def probe (journal : Journal) : Action JournalError (Medium σ) Frontier := do
  let snapshot ← journal.snapshot
  match snapshot.current with
  | none => return .ofSnapshot snapshot none
  | some current => return .ofSnapshot snapshot (← scan current)

/-- Makes way for a completed log at a path. -/
def removeDuplicate (path : String) : Action JournalError (Medium σ) Unit := do
  Medium.warn .duplicateLog
  (Medium.delete path).mapError (.medium path)

/-- Completes the incomplete log at the frontier, or removes it if it has no entries; answers with
the completed log. -/
def sealAt (journal : Journal) (frontier : Frontier) :
    Action JournalError (Medium σ) (Option Segment) := do
  match frontier.incomplete, frontier.lastInIncomplete with
  | none, _ => return none
  | some incomplete, none =>
    (Medium.delete incomplete.location).mapError (.medium incomplete.location)
    return none
  | some incomplete, some last =>
    let completed := journal.log incomplete.start (← Action.successor last)
    if ← (Medium.isPresent completed.location).mapError (.medium completed.location) then
      removeDuplicate completed.location
    (Medium.rename incomplete.location completed.location).mapError (.medium incomplete.location)
    return some completed

end Journal

end SegmentedJournal
