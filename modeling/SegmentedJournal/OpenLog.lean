import SegmentedJournal.Journal.Frontier
/-!
# Open logs

The log that is being written: its incomplete segment, a stream to it, and how much was written.
A log taken over from an earlier writer has no stream, and neither has one that was given up or
completed.

Completing a log closes its stream and renames the file to where it really stops
(`Journal.complete`).  Each step looks at the medium before it acts, so a completion that failed
can be tried again, and one that succeeded does nothing the second time.
-/

namespace SegmentedJournal

/-- A log that is being written, with streams `η`. -/
structure OpenLog (η : Type) where
  /-- The incomplete segment. -/
  segment : Segment
  /-- The stream to it. -/
  stream : Option η := none
  /-- Octets written through the stream. -/
  written : Nat := 0

namespace Journal

variable {σ η : Type} [Storage σ η]

/-- Whether there is a file at a path. -/
def isPresent (path : String) : Action JournalError (Medium σ) Bool :=
  (Medium.isPresent path).mapError (.medium path)

/-- Removes the file of a log without entries. -/
def discardEmpty (path : String) : Action JournalError (Medium σ) Unit := do
  if ← isPresent path then (Medium.delete path).mapError (.medium path)
  else Medium.warn .noCurrentLog

/-- Gives an incomplete log the name of what it covers, up to `next`.  A log without entries is
removed instead.  Answers with the completed log, if there is one. -/
def complete (journal : Journal) (segment : Segment) (next : UInt64) :
    Action JournalError (Medium σ) (Option Segment) := do
  if next < segment.start then
    Action.fail (.sequenceRegression segment.location segment.start next)
  else if next = segment.start then
    discardEmpty segment.location
    return none
  else
    let completed := journal.log segment.start next
    let hasSource ← isPresent segment.location
    let hasTarget ← isPresent completed.location
    if hasSource then
      if hasTarget then removeDuplicate completed.location
      (Medium.rename segment.location completed.location).mapError (.medium segment.location)
      return some completed
    else if hasTarget then return some completed
    else
      Medium.warn .noCurrentLog
      return none

end Journal

namespace OpenLog

variable {σ η α : Type} [Storage σ η]

/-- Makes a new log that starts at a sequence number. -/
def create (journal : Journal) (start : UInt64) : Action JournalError (Medium σ) (OpenLog η) := do
  let segment := journal.log start unknownStop
  let stream ← (Medium.create segment.location).mapError (.medium segment.location)
  return { segment, stream := some stream }

/-- Takes over an incomplete log without a stream to it. -/
def adopt (segment : Segment) : OpenLog η := { segment }

/-- The path of the log. -/
def location (log : OpenLog η) : String := log.segment.location

/-- An action on the log's stream, whose errors are put in other words. -/
def onStream (stream : η) (wrap : IoError → JournalError) (x : Action IoError (η × Medium σ) α) :
    Action JournalError (OpenLog η × Medium σ) α :=
  (x.mapError wrap).zoom (fun t => (stream, t.2)) fun t s => ({ t.1 with stream := some s.1 }, s.2)

/-- Appends an entry. -/
def write (entry : Entry) : Action JournalError (OpenLog η × Medium σ) Unit := do
  let (log, _) ← get
  match log.stream with
  | none =>
    Action.fail (.writeFailure log.location ⟨.notConnected, "no open stream"⟩)
  | some stream =>
    onStream stream (.writeFailure log.location) (Medium.write entry.encode)
    modify fun (log, medium) => ({ log with written := log.written + entry.encodedLength }, medium)

/-- Appends several entries. -/
def writeAll : List Entry → Action JournalError (OpenLog η × Medium σ) Unit
  | [] => return ()
  | entry :: entries => do
    write entry
    writeAll entries

/-- Flushes the stream, if there is one. -/
def flush : Action JournalError (OpenLog η × Medium σ) Unit := do
  let (log, _) ← get
  match log.stream with
  | none => return ()
  | some stream => onStream stream (.flushFailure log.location) Medium.flush

/-- Closes a stream and lets it go, whether or not it could be closed. -/
def closeStream (stream : η) : Action IoError (Medium σ) Unit := fun medium =>
  match Medium.close (stream, medium) with
  | .ok () (_, medium) => .ok () medium
  | .error error (stream, medium) =>
    .error error { medium with storage := Storage.release stream medium.storage }

/-- Takes the stream out of the log. -/
def takeStream : Action JournalError (OpenLog η × Medium σ) (Option η) :=
  fun (log, medium) => .ok log.stream ({ log with stream := none }, medium)

/-- Gives the log up: its stream is closed, and a failure to close it is only warned of. -/
def abandon : Action JournalError (OpenLog η × Medium σ) Unit := do
  match ← takeStream with
  | none => return ()
  | some stream =>
    match ← (closeStream stream).onSecond.attempt with
    | .ok () => return ()
    | .error _ => (Medium.warn .closeFailed).onSecond

/-- Closes the stream and completes the log with its entries up to `next`. -/
def commit (journal : Journal) (next : UInt64) :
    Action JournalError (OpenLog η × Medium σ) (Option Segment) := do
  let (log, _) ← get
  match ← takeStream with
  | none => pure ()
  | some stream => ((closeStream stream).mapError (.writeFailure log.location)).onSecond
  (journal.complete log.segment next).onSecond

end OpenLog

end SegmentedJournal
