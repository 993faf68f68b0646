import SegmentedJournal.Journal
import SegmentedJournal.Medium.Instrumented
/-!
# Journals — snapshots

What segments a journal has, read off the names in its two directories: the checkpoints first, then
the logs.  The two listings are separate steps of the medium, and `Snapshot.ofSegments` puts them
together.  At most one log is incomplete; several mean that the journal is corrupt.

A snapshot is never kept for later, since others change the medium too.
-/

namespace SegmentedJournal

/-- The segments of a journal. -/
structure Snapshot where
  /-- The checkpoints, in order. -/
  checkpoints : List Segment
  /-- The complete logs, in order. -/
  logs : List Segment
  /-- The log being written. -/
  current : Option Segment
deriving DecidableEq, Repr

namespace Snapshot

/-- The snapshot of the given checkpoints and logs, both in order. -/
def ofSegments (root : String) (checkpoints logs : List Segment) :
    Except JournalError Snapshot :=
  let complete := logs.filter fun log => !log.isIncomplete
  match logs.filter Segment.isIncomplete with
  | [] => .ok ⟨checkpoints, complete, none⟩
  | [current] => .ok ⟨checkpoints, complete, some current⟩
  | incomplete => .error (.corruptSnapshot root (incomplete.map Segment.location))

/-- Whether each log starts where the one before it stops. -/
def areContiguous : List Segment → Bool
  | a :: b :: rest => a.stop = b.start && areContiguous (b :: rest)
  | _ => true

/-- The complete log that ends the journal's complete part. -/
def lastLog? (snapshot : Snapshot) : Option Segment :=
  snapshot.logs.getLast?

/-- Whether the complete logs form one run that the current log continues. -/
def isContiguous (snapshot : Snapshot) : Bool :=
  areContiguous snapshot.logs &&
    match snapshot.lastLog?, snapshot.current with
    | some last, some current => last.stop = current.start
    | _, _ => true

/-- Whether a checkpoint reaches further than another: by its stop, then by its start. -/
def reachesBeyond (a b : Segment) : Bool :=
  b.stop < a.stop || a.stop = b.stop && b.start < a.start

/-- The checkpoint that reaches furthest, the last of several. -/
def latestCheckpoint? (snapshot : Snapshot) : Option Segment :=
  snapshot.checkpoints.foldl (fun latest checkpoint =>
    match latest with
    | none => some checkpoint
    | some known => if reachesBeyond known checkpoint then some known else some checkpoint) none

end Snapshot

namespace Journal

variable {σ η : Type} [Storage σ η]

/-- The directory for segments of a kind. -/
def dirOf (journal : Journal) : SegmentKind → String
  | .log => journal.logDir
  | .checkpoint => journal.checkpointDir

/-- The segments with these names, in order; names of something else are passed over. -/
def segmentsNamed (journal : Journal) (kind : SegmentKind) (names : List String) :
    List Segment :=
  Segment.sorted
    (names.filterMap fun name => Segment.ofLocation? kind (Path.join (journal.dirOf kind) name))

/-- The names in a directory of the journal. -/
def listDir (directory : String) : Action JournalError (Medium σ) (List String) :=
  (Medium.list directory).mapError (.medium directory)

/-- The segments of a kind, in order. -/
def listSegments (journal : Journal) (kind : SegmentKind) :
    Action JournalError (Medium σ) (List Segment) := do
  return journal.segmentsNamed kind (← listDir (journal.dirOf kind))

/-- The journal's segments as the medium has them now. -/
def snapshot (journal : Journal) : Action JournalError (Medium σ) Snapshot := do
  let checkpoints ← journal.listSegments .checkpoint
  let logs ← journal.listSegments .log
  let snapshot ← Action.ofExcept (Snapshot.ofSegments journal.location checkpoints logs)
  unless snapshot.isContiguous do Medium.warn .notContiguous
  return snapshot

/-- The log being written. -/
def currentLog (journal : Journal) : Action JournalError (Medium σ) (Option Segment) := do
  return (← journal.snapshot).current

end Journal

end SegmentedJournal
