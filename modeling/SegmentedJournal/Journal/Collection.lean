import SegmentedJournal.Journal.Format
/-!
# Journals — garbage collection

A checkpoint makes the logs it reaches past redundant, and every checkpoint before it.  A pass
takes a snapshot, decides what is redundant, and then removes one segment after the other: logs
first, then checkpoints, each in order, so that what is left is a run whenever the pass stops.  A
segment that is already gone is no failure.

`Collector` is the pass that repeats beside a writer.  It shares only the medium with the writer.
Its errors are left to the next pass; a crash ends it, and is reported when it is stopped.
-/

namespace SegmentedJournal

/-- What a pass removed. -/
structure Collected where
  /-- The locations of the logs. -/
  logs : List String := []
  /-- The locations of the checkpoints. -/
  checkpoints : List String := []
deriving DecidableEq, Repr

/-- Whether a pass removed nothing. -/
def Collected.isEmpty (collected : Collected) : Bool :=
  collected.logs.isEmpty && collected.checkpoints.isEmpty

namespace Snapshot

/-- The logs that a checkpoint makes redundant. -/
def redundantLogs (snapshot : Snapshot) (latest : Segment) : List Segment :=
  snapshot.logs.filter fun log => log.stop ≤ latest.stop

/-- The checkpoints that another makes redundant. -/
def redundantCheckpoints (snapshot : Snapshot) (latest : Segment) : List Segment :=
  snapshot.checkpoints.filter fun checkpoint => checkpoint ≠ latest

end Snapshot

namespace Journal

variable {σ η : Type} [Storage σ η]

/-- Removes segments one after the other; answers with the locations of those that were there. -/
def removeAll : List Segment → Action JournalError (Medium σ) (List String)
  | [] => return []
  | segment :: segments => do
    let removed ← remove segment.location
    let others ← removeAll segments
    return if removed then segment.location :: others else others

/-- One pass. -/
def collect (journal : Journal) : Action JournalError (Medium σ) Collected := do
  let snapshot ← journal.snapshot
  match snapshot.latestCheckpoint? with
  | none => return {}
  | some latest =>
    let logs ← removeAll (snapshot.redundantLogs latest)
    let checkpoints ← removeAll (snapshot.redundantCheckpoints latest)
    return { logs, checkpoints }

end Journal

/-- A repeating pass over a journal. -/
structure Collector where
  /-- The journal. -/
  journal : Journal
  /-- Whether a pass has crashed, after which there are no more. -/
  crashed : Bool := false
deriving DecidableEq, Repr

namespace Collector

variable {σ η : Type} [Storage σ η]

/-- One more pass.  What it warns of is not written down, nor what it reports. -/
def pass (collector : Collector) (medium : Medium σ) : Collector × Medium σ :=
  if collector.crashed then (collector, medium)
  else
    match collector.journal.collect medium with
    | .error (.crash _) after =>
      ({ collector with crashed := true }, { after with warnings := medium.warnings })
    | .ok _ after | .error (.error _) after =>
      (collector, { after with warnings := medium.warnings })

/-- Ends the passes, and reports a crash. -/
def stop (collector : Collector) : Except JournalError Unit :=
  if collector.crashed then .error .collectorCrashed else .ok ()

end Collector

end SegmentedJournal
