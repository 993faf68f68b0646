import SegmentedJournal.Medium.Storage
import SegmentedJournal.Path
/-!
# Media — memory

Storage in memory, in two flavours.  A file of the first is there, empty, from its creation, and
each flush adds to it what was written since; an object of the second appears when its stream is
closed, and a flush does nothing.  Either way a stream holds back what it has not yet published,
and this is what a failure can lose.

Failures are armed beforehand, wait in line, and fire once.  A stream that one has hit is broken:
it takes no more octets, and of those it held back a fate decides that they are persisted, lost,
or persisted with the first half of the failing write behind them (`Fate.survivors`).
-/

namespace SegmentedJournal

/-- When what is written to a stream enters its file. -/
inductive Publishing where
  /-- With each flush. -/
  | onFlush
  /-- When the stream is closed. -/
  | onClose
deriving DecidableEq, Repr

/-- What becomes of the octets that a failing stream held back. -/
inductive Fate where
  /-- They are in the file nevertheless. -/
  | persisted
  /-- They are gone. -/
  | lost
  /-- They are in the file, and so is the first half of the failing write. -/
  | torn
deriving DecidableEq, Repr

/-- The octets that survive, of those held back and those of the failing write. -/
def Fate.survivors (pending failing : Bytes) : Fate → Bytes
  | persisted => pending
  | lost => []
  | torn => pending ++ failing.take (failing.length / 2)

/-- A failure waiting to fire. -/
inductive Fault where
  /-- Lets some writes to streams pass and fails the next. -/
  | write (after : Nat) (fate : Fate)
  /-- Fails a flush. -/
  | flush (fate : Fate)
  /-- Fails the creation of a file. -/
  | create
  /-- Fails a renaming. -/
  | rename
  /-- Fails a deletion. -/
  | delete
deriving DecidableEq, Repr

namespace Fault

/-- What the first failure armed for writes does to one: its fate, if it fires, and the failures
that remain.  One that does not fire yet has one write less to wait for. -/
def takeWrite : List Fault → Option Fate × List Fault
  | [] => (none, [])
  | .write 0 fate :: faults => (some fate, faults)
  | .write (after + 1) fate :: faults => (none, .write after fate :: faults)
  | fault :: faults =>
    let (fate, rest) := takeWrite faults
    (fate, fault :: rest)

/-- What the first failure armed for flushes does to one, and the failures that remain. -/
def takeFlush : List Fault → Option Fate × List Fault
  | [] => (none, [])
  | .flush fate :: faults => (some fate, faults)
  | fault :: faults =>
    let (fate, rest) := takeFlush faults
    (fate, fault :: rest)

/-- The failures that remain when one equal to `wanted` fires, if there is one. -/
def take? (wanted : Fault) (faults : List Fault) : Option (List Fault) :=
  if wanted ∈ faults then some (faults.erase wanted) else none

end Fault

/-- Files in memory. -/
structure Memory where
  /-- When streams publish. -/
  publishing : Publishing
  /-- The files. -/
  files : PathMap Bytes := .empty
  /-- The failures waiting to fire, first armed first. -/
  faults : List Fault := []

namespace Memory

/-- Adds octets to a file.  Where there is none they make one if `createMissing`, and are dropped
otherwise. -/
def publish (path : String) (bytes : Bytes) (createMissing : Bool) (memory : Memory) : Memory :=
  match memory.files.get? path with
  | some contents =>
    -- Nothing to add: the contents need not be taken apart.
    if bytes.isEmpty then memory
    else { memory with files := memory.files.insert path (contents ++ bytes) }
  | none =>
    if createMissing then { memory with files := memory.files.insert path bytes } else memory

/-- What a file holds once octets were added to it. -/
def published (bytes : Bytes) (createMissing : Bool) : Option Bytes → Option Bytes
  | some contents => some (contents ++ bytes)
  | none => if createMissing then some bytes else none

theorem get?_publish (path : String) (bytes : Bytes) (createMissing : Bool) (memory : Memory)
    (other : String) :
    (memory.publish path bytes createMissing).files.get? other =
      if path = other then published bytes createMissing (memory.files.get? path)
      else memory.files.get? other := by
  unfold publish
  cases hget : memory.files.get? path with
  | some contents =>
    by_cases hempty : bytes = []
    · by_cases h : path = other
      · subst h; simp [hempty, published, hget]
      · simp [hempty, h]
    · simp [hempty, published]
  | none =>
    by_cases hcreate : createMissing = true
    · simp [hcreate, published]
    · by_cases h : path = other
      · subst h; simp [hcreate, published, hget]
      · simp [hcreate, h]

@[simp] theorem faults_publish (path : String) (bytes : Bytes) (createMissing : Bool)
    (memory : Memory) : (memory.publish path bytes createMissing).faults = memory.faults := by
  unfold publish
  split
  · split <;> rfl
  · split <;> rfl

@[simp] theorem publishing_publish (path : String) (bytes : Bytes) (createMissing : Bool)
    (memory : Memory) :
    (memory.publish path bytes createMissing).publishing = memory.publishing := by
  unfold publish
  split
  · split <;> rfl
  · split <;> rfl

/-- Whether a stream can still be used. -/
inductive Phase where
  /-- It can. -/
  | live
  /-- A failure hit it. -/
  | broken
  /-- It was closed. -/
  | closed
deriving DecidableEq, Repr

/-- A stream to a file in memory. -/
structure Stream where
  /-- The path of the file. -/
  path : String
  /-- What was written and not yet published. -/
  pending : Bytes := []
  /-- Whether it can still be used. -/
  phase : Phase := .live
deriving DecidableEq, Repr

namespace Stream

/-- The error of using a stream that cannot be used. -/
def refusal? (stream : Stream) : Option IoError :=
  match stream.phase with
  | .live => none
  | .broken =>
    some ⟨.other, "stream to " ++ stream.path ++ " broken by an earlier failure"⟩
  | .closed => some ⟨.brokenPipe, "stream to " ++ stream.path ++ " already closed"⟩

theorem refusal?_eq_none_iff {stream : Stream} : stream.refusal? = none ↔ stream.phase = .live := by
  unfold refusal?
  cases stream.phase <;> simp

/-- Breaks a stream in an operation: the survivors are published, even where the file is gone. -/
def fail (operation : String) (fate : Fate) (failing : Bytes) :
    EStateM IoError (Stream × Memory) Unit :=
  fun (stream, memory) =>
    let survivors := fate.survivors stream.pending failing
    let memory := if survivors = [] then memory else memory.publish stream.path survivors true
    .error ⟨.other, s!"injected {operation} failure on " ++ stream.path⟩
      ({ stream with pending := [], phase := .broken }, memory)

/-- Writes octets, which stay pending. -/
def write (bytes : Bytes) : EStateM IoError (Stream × Memory) Unit := fun (stream, memory) =>
  match stream.refusal? with
  | some error => .error error (stream, memory)
  | none =>
    match Fault.takeWrite memory.faults with
    | (some fate, faults) => fail "write" fate bytes (stream, { memory with faults })
    | (none, faults) =>
      .ok () ({ stream with pending := stream.pending ++ bytes }, { memory with faults })

/-- Publishes what is pending, where a flush publishes; octets for a file that is gone are
dropped. -/
def flush : EStateM IoError (Stream × Memory) Unit := fun (stream, memory) =>
  match stream.refusal? with
  | some error => .error error (stream, memory)
  | none =>
    match memory.publishing with
    | .onClose => .ok () (stream, memory)
    | .onFlush =>
      match Fault.takeFlush memory.faults with
      | (some fate, faults) => fail "flush" fate [] (stream, { memory with faults })
      | (none, faults) =>
        .ok () ({ stream with pending := [] },
          { memory with faults }.publish stream.path stream.pending false)

/-- Publishes what is pending and closes the stream; one that is broken or closed has nothing to
publish. -/
def close : EStateM IoError (Stream × Memory) Unit := fun (stream, memory) =>
  let closed := { stream with pending := [], phase := .closed }
  match stream.phase with
  | .live =>
    .ok () (closed, memory.publish stream.path stream.pending (memory.publishing = .onClose))
  | .broken => .ok () (closed, memory)
  | .closed => .ok () (stream, memory)

end Stream

/-- Makes a file; where objects are published when their streams close, only the stream. -/
def create (path : String) : EStateM MediumError Memory Stream := fun memory =>
  match Fault.take? .create memory.faults with
  | some faults => .error (.injected "create" path) { memory with faults }
  | none =>
    match memory.publishing with
    | .onFlush => .ok { path } { memory with files := memory.files.insert path [] }
    | .onClose => .ok { path } memory

/-- Opens a file. -/
def openRead (path : String) : EStateM MediumError Memory (Except IoError Bytes) := fun memory =>
  match memory.files.get? path with
  | some contents => .ok (.ok contents) memory
  | none => .error (.notFound path) memory

/-- Removes a file. -/
def delete (path : String) : EStateM MediumError Memory Unit := fun memory =>
  match Fault.take? .delete memory.faults with
  | some faults => .error (.injected "delete" path) { memory with faults }
  | none =>
    if memory.files.contains path then .ok () { memory with files := memory.files.erase path }
    else .error (.notFound path) memory

/-- Gives a file another path, at which there must be no file. -/
def rename (source target : String) : EStateM MediumError Memory Unit := fun memory =>
  match Fault.take? .rename memory.faults with
  | some faults => .error (.injected "rename" source) { memory with faults }
  | none =>
    if memory.files.contains target then
      .error (.io ⟨.alreadyExists, "rename destination " ++ target ++ " already exists"⟩) memory
    else
      match memory.files.get? source with
      | some contents =>
        .ok () { memory with files := (memory.files.erase source).insert target contents }
      | none => .error (.notFound source) memory

/-- The names of the files directly in a directory, in order. -/
def childrenOf (directory : String) (memory : Memory) : List String :=
  (memory.files.scan (Path.join directory "")).filterMap (Path.child? directory)

/-- The scan for them leaves out no child of the directory. -/
theorem childrenOf_eq (directory : String) (memory : Memory) :
    memory.childrenOf directory = memory.files.paths.filterMap (Path.child? directory) := by
  rw [childrenOf, PathMap.scan_eq_filter, List.filterMap_filter]
  congr 1
  funext path
  split
  · rfl
  · next hprefix =>
    rw [Path.child?]
    cases hrest : (Path.join directory "").toList.isPrefixOf? path.toList with
    | none => rfl
    | some name =>
      exact absurd (List.isPrefixOf_iff_prefix.2 ⟨name, (Path.isPrefixOf?_eq_some_iff.1 hrest).symm⟩)
        hprefix

instance : Storage Memory Stream where
  name memory := match memory.publishing with
    | .onFlush => "memory"
    | .onClose => "memory-object-store"
  supportsFlush memory := memory.publishing = .onFlush
  files memory := memory.files
  put path bytes memory := { memory with files := memory.files.insert path bytes }
  create := create
  openRead := openRead
  isPresent path := fun memory => .ok (memory.files.contains path) memory
  delete := delete
  rename := rename
  list directory := fun memory => .ok (memory.childrenOf directory) memory
  makeDirs _ := fun memory => .ok () memory
  write := Stream.write
  flush := Stream.flush
  close := Stream.close
  release _ memory := memory

end Memory

end SegmentedJournal
