import SegmentedJournal.Journal.Snapshot
/-!
# Journals — formatting

Emptying a journal's directories, and asking whether there is anything in them.
-/

namespace SegmentedJournal.Journal

variable {σ η : Type} [Storage σ η]

/-- Removes a file of the journal; answers whether it was there. -/
def remove (path : String) : Action JournalError (Medium σ) Bool := do
  match ← (Medium.delete path).attempt with
  | .ok () => return true
  | .error (.notFound _) => return false
  | .error error => Action.fail (.medium path error)

/-- Whether there is a file in one of the directories. -/
def anyIn : List String → Action JournalError (Medium σ) Bool
  | [] => return false
  | directory :: directories => do
    let names ← listDir directory
    if names.isEmpty then anyIn directories else return true

/-- Whether the journal has any files. -/
def isFormatted (journal : Journal) : Action JournalError (Medium σ) Bool :=
  anyIn [journal.logDir, journal.checkpointDir]

/-- Removes the files in a directory, and makes it. -/
def clear (directory : String) : Action JournalError (Medium σ) Unit := do
  for name in ← listDir directory do
    discard (remove (Path.join directory name))
  (Medium.makeDirs directory).mapError (.medium directory)

/-- Removes everything in the journal's directories, and makes them. -/
def format (journal : Journal) : Action JournalError (Medium σ) Unit := do
  clear journal.logDir
  clear journal.checkpointDir

end SegmentedJournal.Journal
