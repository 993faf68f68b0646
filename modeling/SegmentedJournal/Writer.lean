import SegmentedJournal.Journal.Collection
import SegmentedJournal.OpenLog
/-!
# Writers

A writer gives entries their sequence numbers, without gaps, and appends them to the open log.  A
log ends when a flush finds it large enough, or at every flush on storage that publishes only when
a stream closes; the next write completes it and opens another.

The writer keeps every entry written since the last flush that succeeded.  When the medium fails a
write or a flush, the writer needs a reset, and makes it before its next operation
(`Writer.reset`): it finds the durable frontier, completes the damaged log there, and writes the
entries behind it into a new log.  A reset that would leave a gap, or write over what is there,
fails before it changes anything.

A crash inside an operation leaves what was changed so far, and every later operation refuses.
-/

namespace SegmentedJournal

/-- A writer, with streams `η`. -/
structure Writer (η : Type) where
  /-- The journal written to. -/
  journal : Journal
  /-- The sequence number of the next entry. -/
  next : UInt64
  /-- The open log. -/
  log : Option (OpenLog η) := none
  /-- The entries written since the last flush that succeeded, in order. -/
  unflushed : List Entry := []
  /-- Whether the next write starts a new log. -/
  rotateNext : Bool := true
  /-- Whether the next operation starts with a reset. -/
  needsReset : Bool := false
  /-- Whether the writer is closed. -/
  closed : Bool := false
  /-- The collector beside the writer. -/
  collector : Option Collector := none
  /-- Whether an operation crashed. -/
  poisoned : Bool := false

namespace Writer

variable {σ η α : Type} [Storage σ η]

/-- The segment being written. -/
def currentSegment (writer : Writer η) : Option Segment :=
  writer.log.map OpenLog.segment

/-- Starts a writer on a journal, at a sequence number.  An incomplete log is taken over, and
completed by the first write. -/
def start (journal : Journal) (next : UInt64) : Action JournalError (Medium σ) (Writer η) := do
  Action.ofExcept journal.config.validate
  let snapshot ← journal.snapshot
  return {
    journal, next
    log := snapshot.current.map OpenLog.adopt
    collector := if journal.config.gcEnabled then some { journal } else none }

/-! ### Parts of operations -/

/-- Changes the writer. -/
def update (f : Writer η → Writer η) : Action JournalError (Writer η × Medium σ) Unit :=
  fun (writer, medium) => .ok () (f writer, medium)

/-- An action on an open log, which stays the writer's. -/
def onLog (log : OpenLog η) (x : Action JournalError (OpenLog η × Medium σ) α) :
    Action JournalError (Writer η × Medium σ) α :=
  x.zoom (fun t => (log, t.2)) fun t s => ({ t.1 with log := some s.1 }, s.2)

/-- An action after whose error of some sort the writer needs a reset. -/
def resetAfter (unsure : JournalError → Bool) (x : Action JournalError (Writer η × Medium σ) α) :
    Action JournalError (Writer η × Medium σ) α := fun state =>
  match x state with
  | .error (.error error) (writer, medium) =>
    .error (.error error)
      (if unsure error then { writer with needsReset := true } else writer, medium)
  | outcome => outcome

/-- Whether an error leaves open what became of a stream's octets. -/
def isWriteFailure : JournalError → Bool
  | .writeFailure _ _ => true
  | _ => false

/-- Opens a new log that starts at a sequence number; answers with it. -/
def openLog (start : UInt64) : Action JournalError (Writer η × Medium σ) (OpenLog η) := do
  let (writer, _) ← get
  update fun writer => { writer with log := none }
  let log ← (OpenLog.create writer.journal start).onSecond
  update fun writer => { writer with log := some log }
  return log

/-- Completes the open log and opens the next one, which starts with the next entry. -/
def rotate : Action JournalError (Writer η × Medium σ) (OpenLog η) := do
  let (writer, _) ← get
  match writer.log with
  | none => pure ()
  | some log =>
    discard (resetAfter isWriteFailure (onLog log (OpenLog.commit writer.journal writer.next)))
  let log ← openLog writer.next
  update fun writer => { writer with rotateNext := false }
  return log

/-- Refuses a frontier that leaves a gap before the entries at hand, or reaches past them. -/
def checkFrontier (expected : UInt64) (writer : Writer η) : Except JournalError Unit :=
  match writer.unflushed.head? with
  | some first =>
    if expected < first.sequence then .error (.entryMissing expected first.sequence)
    else if writer.next < expected then .error (.journalAhead expected writer.next)
    else .ok ()
  | none =>
    if writer.next < expected then .error (.journalAhead expected writer.next) else .ok ()

/-- Reconciles with the medium: seals the damaged log at the durable frontier, and writes the
entries behind it into a new log. -/
def reset : Action JournalError (Writer η × Medium σ) Unit := do
  let (writer, _) ← get
  match writer.log with
  | none => pure ()
  | some log => onLog log OpenLog.abandon
  let frontier ← writer.journal.probe.onSecond
  let expected ← frontier.next
  Action.ofExcept (writer.checkFrontier expected)
  discard (writer.journal.sealAt frontier).onSecond
  let unflushed := writer.unflushed.dropWhile fun entry => entry.sequence < expected
  update fun writer => { writer with log := none, unflushed }
  let log ← openLog (unflushed.head?.elim writer.next Entry.sequence)
  onLog log (OpenLog.writeAll unflushed)
  update fun writer => { writer with needsReset := false, rotateNext := false }

/-- Resets the writer if it needs it. -/
def settle : Action JournalError (Writer η × Medium σ) Unit := do
  let (writer, _) ← get
  if writer.needsReset then reset

/-- The open log for the next entry. -/
def logForNext : Action JournalError (Writer η × Medium σ) (OpenLog η) := do
  let (writer, _) ← get
  match writer.log with
  | none => rotate
  | some log => if writer.rotateNext then rotate else return log

/-- Appends an entry under the next sequence number; answers with the number. -/
def append (entry : Entry) : Action JournalError (Writer η × Medium σ) UInt64 := do
  let (writer, _) ← get
  if writer.closed then Action.fail .writeAfterClose
  settle
  let (writer, _) ← get
  let entry := { entry with sequence := writer.next }
  let log ← logForNext
  resetAfter (fun _ => true) (onLog log (OpenLog.write entry))
  update fun writer => { writer with unflushed := writer.unflushed ++ [entry] }
  let next ← Action.successor writer.next
  update fun writer => { writer with next }
  return entry.sequence

/-- Makes the entries written so far durable, as far as the storage can before the log ends. -/
def push : Action JournalError (Writer η × Medium σ) Unit := do
  let (writer, _) ← get
  if writer.closed then Action.fail .flushAfterClose
  settle
  let (writer, _) ← get
  match writer.log with
  | none => return ()
  | some log =>
    if log.stream.isNone || log.written = 0 then return ()
    resetAfter (fun _ => true) (onLog log OpenLog.flush)
    let (_, medium) ← get
    let full := writer.journal.config.maxLogBytes.toNat ≤ log.written
    let ended := full || !Storage.supportsFlush medium.storage
    update fun writer =>
      { writer with unflushed := [], rotateNext := writer.rotateNext || ended }

/-- The errors of an action, if it has one. -/
def errorsOf (x : Action JournalError (Writer η × Medium σ) α) :
    Action JournalError (Writer η × Medium σ) (List JournalError) := do
  match ← x.attempt with
  | .ok _ => return []
  | .error error => return [error]

/-- Completes the open log and stops the collector.  Each step is tried whatever became of those
before it, but a log is given up after a reset that failed. -/
def finish : Action JournalError (Writer η × Medium σ) Unit := do
  let (writer, _) ← get
  if writer.closed then return ()
  let resetErrors ← errorsOf settle
  let (writer, _) ← get
  let commitErrors ←
    match writer.log with
    | none => pure []
    | some log =>
      if resetErrors.isEmpty then
        errorsOf (onLog log (OpenLog.commit writer.journal writer.next))
      else
        onLog log OpenLog.abandon
        pure []
  let stopErrors :=
    match writer.collector.map Collector.stop with
    | some (.error error) => [error]
    | _ => []
  update fun writer => { writer with log := none, collector := none, closed := true }
  match resetErrors ++ commitErrors ++ stopErrors with
  | [] => return ()
  | [error] => Action.fail error
  | errors => Action.fail (.shutdown errors)

/-! ### Operations -/

/-- An operation of the writer: it refuses after a crash, and a crash in it is remembered. -/
def operation (x : Action JournalError (Writer η × Medium σ) α) :
    Action JournalError (Writer η × Medium σ) α := fun (writer, medium) =>
  if writer.poisoned then .error (.error .poisoned) (writer, medium)
  else
    match x (writer, medium) with
    | .error (.crash c) (writer, medium) =>
      .error (.crash c) ({ writer with poisoned := true }, medium)
    | outcome => outcome

/-- Appends an entry under the next sequence number, whatever number it has; answers with the
number.  The entry is not durable before a flush succeeds. -/
def write (entry : Entry) : Action JournalError (Writer η × Medium σ) UInt64 :=
  operation (append entry)

/-- Makes the entries written so far durable. -/
def flush : Action JournalError (Writer η × Medium σ) Unit :=
  operation push

/-- Closes the writer; closing it again does nothing. -/
def close : Action JournalError (Writer η × Medium σ) Unit :=
  operation finish

/-- What is left when a writer is let go without being closed. -/
def release (writer : Writer η) (medium : Medium σ) : Medium σ :=
  let medium :=
    match writer.log.bind OpenLog.stream with
    | some stream => { medium with storage := Storage.release stream medium.storage }
    | none => medium
  match writer.collector.map Collector.stop with
  | some (.error _) =>
    { medium with warnings := medium.warnings ++ [.collectorCrashed] }
  | _ => medium

end Writer

end SegmentedJournal
