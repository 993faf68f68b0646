import SegmentedJournal.Bytes
import SegmentedJournal.Medium.Directory.Error
import SegmentedJournal.Medium.Directory.Pathname
import SegmentedJournal.Medium.PathMap
/-!
# Directories — trees

A tree of directories and files, and where paths lead in it.  A position is the names on the way
from the root.  A path is walked step by step, and every step but the last must end in a
directory; the last is looked up where the walk has come to (`locate`, `find`).

A file is not its position: it has a number, under which the tree keeps what it holds, so that it
can be moved or removed while it is written.
-/

namespace SegmentedJournal

/-- What lies at a position. -/
inductive Node where
  /-- A directory. -/
  | directory
  /-- A file, by its number. -/
  | file (number : Nat)
deriving DecidableEq, Repr

/-- A tree of directories and files. -/
structure Directory where
  /-- What lies at each position; the root is not among them. -/
  nodes : List (List String × Node) := []
  /-- What each file holds, by its number. -/
  contents : Array Bytes := #[]
  /-- The octets of the path to the root, which count towards the length of every path. -/
  rootLength : Nat := 0

/-- Where a path leads. -/
inductive Place where
  /-- A directory that the path does not name, since it ends in a step without a name. -/
  | unnamed (position : List String)
  /-- A position that the path names, whether something lies there or not.  The root has its name
  from outside the tree. -/
  | named (position : List String)
deriving DecidableEq, Repr

namespace Directory

open Pathname (Step)

/-! ### Nodes -/

/-- What lies at a position, if anything does. -/
def nodeAt? (tree : Directory) : List String → Option Node
  | [] => some .directory
  | position => (tree.nodes.find? fun entry => entry.1 = position).map Prod.snd

/-- The tree with a node at a position. -/
def setNode (tree : Directory) (position : List String) (node : Node) : Directory :=
  { tree with nodes := (position, node) :: tree.nodes.filter fun entry => entry.1 ≠ position }

/-- The tree with nothing at a position. -/
def removeNode (tree : Directory) (position : List String) : Directory :=
  { tree with nodes := tree.nodes.filter fun entry => entry.1 ≠ position }

/-- The tree with everything at and below `source` moved to `target`. -/
def move (tree : Directory) (source target : List String) : Directory :=
  { tree with nodes := (tree.removeNode target).nodes.map fun (position, node) =>
      match source.isPrefixOf? position with
      | some below => (target ++ below, node)
      | none => (position, node) }

/-- Whether nothing lies below a position. -/
def isBare (tree : Directory) (position : List String) : Bool :=
  tree.nodes.all fun entry => !position.isPrefixOf entry.1 || entry.1 = position

/-- The names of the files directly in a directory, in order. -/
def childrenOf (tree : Directory) (position : List String) : List String :=
  let children := tree.nodes.filterMap fun (child, node) =>
    match node, child.getLast? with
    | .file _, some name => if child.dropLast = position then some name else none
    | _, _ => none
  children.mergeSort fun a b => a ≤ b

/-! ### Files -/

/-- What a file holds. -/
def contentsOf (tree : Directory) (number : Nat) : Bytes :=
  tree.contents.getD number []

/-- The tree with what a file holds replaced. -/
def setContents (tree : Directory) (number : Nat) (bytes : Bytes) : Directory :=
  { tree with contents := tree.contents.setIfInBounds number bytes }

/-- The tree with a new file at a position, and the file's number. -/
def newFile (tree : Directory) (position : List String) : Nat × Directory :=
  let number := tree.contents.size
  (number, { tree.setNode position (.file number) with contents := tree.contents.push [] })

/-- The files of the tree by their paths. -/
def files (tree : Directory) : PathMap Bytes :=
  tree.nodes.foldl (fun map (position, node) =>
    match node with
    | .directory => map
    | .file number =>
      map.insert ("/" ++ "/".intercalate position) (tree.contentsOf number)) .empty

/-! ### Walks -/

/-- Refuses a path that the file system cannot read: one that ends early. -/
def checkEnd (path : String) : Except IoError Unit :=
  if Pathname.holdsEnd path then .error endsEarly else .ok ()

/-- Refuses a path that the file system cannot read: one that is too long. -/
def checkLength (tree : Directory) (path : String) : Except IoError Unit :=
  if tree.rootLength + path.utf8ByteSize < Pathname.pathLimit then .ok () else .error tooLong

/-- What lies at a position whose directory exists, unless its name is too long. -/
def lookup (tree : Directory) (position : List String) : Except IoError (Option Node) :=
  if position.getLast?.any fun name => Pathname.nameLimit < name.utf8ByteSize then .error tooLong
  else .ok (tree.nodeAt? position)

/-- The directory that a step leads to. -/
def follow (tree : Directory) (position : List String) : Step → Except IoError (List String)
  | .here => .ok position
  | .above => .ok position.dropLast
  | .named name =>
    match tree.lookup (position ++ [name]) with
    | .error error => .error error
    | .ok none => .error missing
    | .ok (some (.file _)) => .error notDirectory
    | .ok (some .directory) => .ok (position ++ [name])

/-- Where a path leads, if there are directories on the way. -/
def locate (tree : Directory) (path : String) : Except IoError Place := do
  let steps := Pathname.steps path
  let position ← steps.dropLast.foldlM tree.follow []
  match steps.getLast? with
  | none => return .named position
  | some .here => return .unnamed position
  | some .above => return .unnamed position.dropLast
  | some (.named name) => return .named (position ++ [name])

/-- Where a path leads, if it can be read. -/
def reach (tree : Directory) (path : String) : Except IoError Place := do
  checkEnd path
  tree.checkLength path
  tree.locate path

/-- The position a path leads to, and what lies there. -/
def find (tree : Directory) (path : String) : Except IoError (List String × Node) := do
  match ← tree.reach path with
  | .unnamed position => return (position, .directory)
  | .named position =>
    match ← tree.lookup position with
    | none => throw missing
    | some .directory => return (position, .directory)
    | some (.file number) =>
      if Pathname.asksDirectory path then throw notDirectory else return (position, .file number)

/-- Whether a path leads to a directory. -/
def leadsToDirectory (tree : Directory) (path : String) : Bool :=
  match tree.find path with
  | .ok (_, .directory) => true
  | _ => false

end Directory

end SegmentedJournal
