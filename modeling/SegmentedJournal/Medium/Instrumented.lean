import SegmentedJournal.Action
import SegmentedJournal.Medium.Storage
/-!
# Media — instruments

A medium is storage with instruments around it.  Its operations are counted, and so are those that
failed; a call can be made to fail, or to answer wrongly, before the storage sees it; and what an
operation warns of is written down.

An armed call fault waits for calls of its kind: each counts it down, and the first call after
that is hit.  Faults of one kind wait in line, so only the first of them counts down.  A call that
crashes is not counted.
-/

namespace SegmentedJournal

/-! ### Instruments -/

/-- The calls a fault can be armed for. -/
inductive Call where
  /-- A listing, which fails. -/
  | list
  /-- An opening, which fails. -/
  | openRead
  /-- A question whether a file is there, which fails. -/
  | isPresent
  /-- A making of directories, which fails. -/
  | makeDirs
  /-- A closing of a stream, which fails and leaves the stream open. -/
  | close
  /-- A reading of a file that was opened, which fails. -/
  | read
  /-- A listing that succeeds, and gets a name too many. -/
  | ghost
  /-- A listing, which crashes. -/
  | crash
deriving DecidableEq, Repr

/-- A fault armed for a call. -/
structure CallFault where
  /-- The call it waits for. -/
  call : Call
  /-- How many such calls it lets pass. -/
  after : Nat
  /-- The name that a listing gets too many. -/
  name : String := ""
deriving DecidableEq, Repr

/-- What the first fault armed for a call does to it: the fault, if it fires, and those that
remain. -/
def CallFault.take (call : Call) : List CallFault → Option CallFault × List CallFault
  | [] => (none, [])
  | fault :: faults =>
    if fault.call = call then
      match fault.after with
      | 0 => (some fault, faults)
      | after + 1 => (none, { fault with after } :: faults)
    else
      let (fired, rest) := take call faults
      (fired, fault :: rest)

/-- How many operations a medium has answered. -/
structure Counters where
  /-- Creations. -/
  created : Nat := 0
  /-- Openings. -/
  opened : Nat := 0
  /-- Questions whether a file is there. -/
  asked : Nat := 0
  /-- Deletions. -/
  deleted : Nat := 0
  /-- Renamings. -/
  renamed : Nat := 0
  /-- Listings. -/
  listed : Nat := 0
  /-- Operations of any kind that failed. -/
  failed : Nat := 0
deriving DecidableEq, Repr

/-- The operations that change which files there are. -/
def Counters.mutations (counters : Counters) : Nat :=
  counters.created + counters.deleted + counters.renamed

/-- What an operation warns of. -/
inductive Warning where
  /-- The complete logs leave a gap or overlap. -/
  | notContiguous
  /-- A complete log was in the way of another with its name. -/
  | duplicateLog
  /-- The log to be completed is gone. -/
  | noCurrentLog
  /-- A stream given up could not be closed. -/
  | closeFailed
  /-- The garbage collector had crashed. -/
  | collectorCrashed
deriving DecidableEq, Repr

/-- The text of a warning. -/
def Warning.message : Warning → String
  | notContiguous => "Complete journal logs are not contiguous"
  | duplicateLog => "Deleting duplicate completed log"
  | noCurrentLog => "No current log to mark as complete"
  | closeFailed => "Failed to close broken journal stream"
  | collectorCrashed => "Journal garbage collector did not stop cleanly"

/-- Storage with its instruments. -/
structure Medium (σ : Type) where
  /-- The storage. -/
  storage : σ
  /-- The call faults that have not fired, first armed first. -/
  callFaults : List CallFault := []
  /-- The counters. -/
  counters : Counters := {}
  /-- The warnings so far, first to last. -/
  warnings : List Warning := []

namespace Medium

variable {σ η ε α : Type}

/-- The error of a call that was made to fail. -/
def scripted (call : String) : IoError :=
  ⟨.other, s!"scripted {call} failure"⟩

/-- Lets the first fault armed for a call act on it. -/
def consult (call : Call) : Action ε (Medium σ) (Option CallFault) := fun medium =>
  let (fired, callFaults) := CallFault.take call medium.callFaults
  .ok fired { medium with callFaults }

/-- An action of the storage. -/
def onStorage (x : EStateM ε σ α) : Action ε (Medium σ) α :=
  (Action.ofEStateM x).zoom storage fun medium storage => { medium with storage }

/-- An action of the storage on a stream. -/
def onStream (x : EStateM ε (η × σ) α) : Action ε (η × Medium σ) α :=
  (Action.ofEStateM x).zoom (fun t => (t.1, t.2.storage))
    fun t s => (s.1, { t.2 with storage := s.2 })

/-- An action that is counted once it has answered. -/
def counted (count : Counters → Counters) (x : Action ε (Medium σ) α) : Action ε (Medium σ) α :=
  fun medium =>
    match x medium with
    | .ok a medium => .ok a { medium with counters := count medium.counters }
    | .error (.error e) medium =>
      let counters := count medium.counters
      .error (.error e)
        { medium with counters := { counters with failed := counters.failed + 1 } }
    | .error (.crash c) medium => .error (.crash c) medium

/-- Fails if a fault armed for a call hits it. -/
def guarded (call : Call) (name : String) : Action MediumError (Medium σ) Unit := do
  if (← consult call).isSome then Action.fail (.io (scripted name))

/-- Writes a warning down. -/
def warn (warning : Warning) : Action ε (Medium σ) Unit := fun medium =>
  .ok () { medium with warnings := medium.warnings ++ [warning] }

/-! ### Operations -/

variable [Storage σ η]

/-- Makes an empty file and a stream to it. -/
def create (path : String) : Action MediumError (Medium σ) η :=
  counted (fun c => { c with created := c.created + 1 }) do
    onStorage (Storage.create path)

/-- Opens a file, for reading it to the end. -/
def openRead (path : String) : Action MediumError (Medium σ) (Except IoError Bytes) :=
  counted (fun c => { c with opened := c.opened + 1 }) do
    guarded .openRead "open"
    let contents ← onStorage (Storage.openRead path)
    if (← consult .read).isSome then return .error (scripted "read")
    return contents

/-- Whether there is a file at a path. -/
def isPresent (path : String) : Action MediumError (Medium σ) Bool :=
  counted (fun c => { c with asked := c.asked + 1 }) do
    guarded .isPresent "exists"
    onStorage (Storage.isPresent path)

/-- Removes a file. -/
def delete (path : String) : Action MediumError (Medium σ) Unit :=
  counted (fun c => { c with deleted := c.deleted + 1 }) do
    onStorage (Storage.delete path)

/-- Gives a file another path. -/
def rename (source target : String) : Action MediumError (Medium σ) Unit :=
  counted (fun c => { c with renamed := c.renamed + 1 }) do
    onStorage (Storage.rename source target)

/-- The names of the files directly in a directory. -/
def list (directory : String) : Action MediumError (Medium σ) (List String) :=
  counted (fun c => { c with listed := c.listed + 1 }) do
    if (← consult .crash).isSome then Action.crash .scripted
    guarded .list "list"
    let names ← onStorage (Storage.list directory)
    match ← consult .ghost with
    | some fault => return names ++ [fault.name]
    | none => return names

/-- Makes a directory and those above it; this is not counted. -/
def makeDirs (directory : String) : Action MediumError (Medium σ) Unit := do
  guarded .makeDirs "mkdirs"
  onStorage (Storage.makeDirs directory)

/-! ### Streams -/

/-- Writes octets to a stream, if there are any. -/
def write (bytes : Bytes) : Action IoError (η × Medium σ) Unit :=
  if bytes.isEmpty then pure () else onStream (Storage.write bytes)

/-- Flushes a stream. -/
def flush : Action IoError (η × Medium σ) Unit :=
  onStream Storage.flush

/-- Closes a stream. -/
def close : Action IoError (η × Medium σ) Unit := do
  if (← (consult .close).onSecond).isSome then Action.fail (scripted "close")
  onStream Storage.close

end Medium

end SegmentedJournal
