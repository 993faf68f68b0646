import SegmentedJournal.Config
import SegmentedJournal.Segment.Name
/-!
# Journals

A journal lives in a directory, its root: logs in one subdirectory, checkpoints in another.  A
journal is only this place and its settings; the medium that holds the files is passed to each
operation.
-/

namespace SegmentedJournal

/-- A journal's place and settings. -/
structure Journal where
  /-- The root directory. -/
  location : String
  /-- The settings. -/
  config : Config
deriving DecidableEq, Repr

namespace Journal

/-- The journal in a directory, whose path may end in slashes. -/
def rooted (directory : String) (config : Config) : Journal :=
  ⟨Path.trimmed directory, config⟩

/-- The directory of the logs. -/
def logDir (journal : Journal) : String :=
  Path.join journal.location "logs"

/-- The directory of the checkpoints. -/
def checkpointDir (journal : Journal) : String :=
  Path.join journal.location "checkpoints"

/-- The log that covers `start` up to `stop`. -/
def log (journal : Journal) (start stop : UInt64) : Segment :=
  ⟨start, stop, Path.join journal.logDir (Segment.encodeName start stop), .log⟩

/-- The checkpoint that covers `start` up to `stop`. -/
def checkpoint (journal : Journal) (start stop : UInt64) : Segment :=
  ⟨start, stop, Path.join journal.checkpointDir (Segment.encodeName start stop), .checkpoint⟩

end Journal

end SegmentedJournal
