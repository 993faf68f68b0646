import SegmentedJournal.Medium.Directory.Stream
import SegmentedJournal.Medium.Storage
/-!
# Media — directories

Storage in a tree of directories, with the rules of a local file system.

Creating a file first makes the directories above it; creating it again empties it.  Directories
made before a failure stay.  Renaming replaces a file at the target, or an empty directory if it
is a directory that is renamed.
-/

namespace SegmentedJournal.Directory

/-! ### Making directories -/

/-- The tree with a new directory at a path. -/
def makeDirectory (tree : Directory) (path : String) : Except IoError Directory := do
  match ← tree.reach path with
  | .unnamed _ => throw occupied
  | .named position =>
    match ← tree.lookup position with
    | some _ => throw occupied
    | none => return tree.setNode position .directory

/-- The tree with a directory at a path, new or not. -/
def ensureDirectory (tree : Directory) (path : String) : Except IoError Directory :=
  match tree.makeDirectory path with
  | .ok tree => .ok tree
  | .error error => if tree.leadsToDirectory path then .ok tree else .error error

/-- Ensures a directory at the first of some paths, each of which lies directly in the next; where
there is no directory to make it in, that is ensured before. -/
def ensureAll : List String → EStateM IoError Directory Unit
  | [], tree => .ok () tree
  | path :: above, tree =>
    match tree.ensureDirectory path with
    | .ok tree => .ok () tree
    | .error error =>
      if error.kind = .notFound then
        match ensureAll above tree with
        | .ok () tree =>
          match tree.ensureDirectory path with
          | .ok tree => .ok () tree
          | .error error => .error error tree
        | .error error tree => .error error tree
      else .error error tree

/-! ### Operations -/

/-- An operation whose errors are the file system's. -/
def lifted {α : Type} (operation : EStateM IoError Directory α) : EStateM MediumError Directory α :=
  fun tree =>
    match operation tree with
    | .ok a tree => .ok a tree
    | .error error tree => .error (.io error) tree

/-- The error of an operation on a path, when the file system reports one. -/
def reported (path : String) (error : IoError) : MediumError :=
  if error.kind = .notFound then .notFound path else .io error

/-- Makes the file at a path whose directory exists, or empties it; answers with its number. -/
def emptyFile (tree : Directory) (path : String) : Except IoError (Nat × Directory) := do
  match ← tree.reach path with
  | .unnamed _ => throw isDirectory
  | .named position =>
    if Pathname.asksDirectory path then throw isDirectory
    match ← tree.lookup position with
    | some .directory => throw isDirectory
    | some (.file number) => return (number, tree.setContents number [])
    | none => return tree.newFile position

/-- Makes the file at a path, and the directories above it, or empties it; answers with its
number. -/
def createFile (path : String) : EStateM IoError Directory Nat := fun tree =>
  match ensureAll (Pathname.above path) tree with
  | .error error tree => .error error tree
  | .ok () tree =>
    match tree.emptyFile path with
    | .ok (number, tree) => .ok number tree
    | .error error => .error error tree

/-- Makes a file, and the directories above it. -/
def create (path : String) : EStateM MediumError Directory Stream :=
  (fun number => { number }) <$> lifted (createFile path)

/-- Opens a file; reading a directory fails only once it is open. -/
def openRead (path : String) : EStateM MediumError Directory (Except IoError Bytes) := fun tree =>
  match tree.find path with
  | .ok (_, .file number) => .ok (.ok (tree.contentsOf number)) tree
  | .ok (_, .directory) => .ok (.error isDirectory) tree
  | .error error => .error (reported path error) tree

/-- Whether there is a file or a directory at a path. -/
def isPresent (path : String) : EStateM MediumError Directory Bool := fun tree =>
  match tree.find path with
  | .ok _ => .ok true tree
  | .error error => if error.kind = .notFound then .ok false tree else .error (.io error) tree

/-- The tree without the file at a path. -/
def removed (tree : Directory) (path : String) : Except IoError Directory := do
  match ← tree.reach path with
  | .unnamed _ => throw isDirectory
  | .named position =>
    match ← tree.lookup position with
    | none => throw missing
    | some .directory => throw isDirectory
    | some (.file _) =>
      if Pathname.asksDirectory path then throw notDirectory else return tree.removeNode position

/-- Removes a file. -/
def delete (path : String) : EStateM MediumError Directory Unit := fun tree =>
  match tree.removed path with
  | .ok tree => .ok () tree
  | .error error => .error (reported path error) tree

/-- The tree with the node at `source` moved to `target`, where `there` lies. -/
def replaced (tree : Directory) (source target : List String) (node : Node) (there : Option Node) :
    Except IoError Directory :=
  if source = target then .ok tree
  else if source.isPrefixOf target then .error insideItself
  else if target.isPrefixOf source then .error notEmpty
  else
    match node, there with
    | .file _, some .directory => .error isDirectory
    | .directory, some (.file _) => .error notDirectory
    | .directory, some .directory =>
      if tree.isBare target then .ok (tree.move source target) else .error notEmpty
    | .file _, _ | .directory, none => .ok (tree.move source target)

/-- The tree with what is at a path moved to another. -/
def moved (tree : Directory) (source target : String) : Except IoError Directory := do
  checkEnd source
  checkEnd target
  match ← tree.reach source, ← tree.reach target with
  | .named sourcePosition, .named targetPosition =>
    match ← tree.lookup sourcePosition with
    | none => throw missing
    | some node =>
      let there ← tree.lookup targetPosition
      if node ≠ .directory && (Pathname.asksDirectory source || Pathname.asksDirectory target) then
        throw notDirectory
      tree.replaced sourcePosition targetPosition node there
  | _, _ => throw busy

/-- Gives a file another path; a file there is replaced. -/
def rename (source target : String) : EStateM MediumError Directory Unit := fun tree =>
  match tree.moved source target with
  | .ok tree => .ok () tree
  | .error error => .error (reported source error) tree

/-- The names of the files directly in a directory; one that is missing has none. -/
def list (path : String) : EStateM MediumError Directory (List String) := fun tree =>
  match tree.find path with
  | .ok (position, .directory) => .ok (tree.childrenOf position) tree
  | .ok (_, .file _) => .error (.io notDirectory) tree
  | .error error => if error.kind = .notFound then .ok [] tree else .error (.io error) tree

/-- Makes a directory and those above it. -/
def makeDirs (path : String) : EStateM MediumError Directory Unit :=
  lifted (ensureAll (path :: Pathname.above path))

/-- The tree with a file put in place, and the directories above it. -/
def put (path : String) (bytes : Bytes) (tree : Directory) : Directory :=
  match createFile path tree with
  | .ok number tree => tree.setContents number bytes
  | .error _ tree => tree

instance : Storage Directory Stream where
  name _ := "local"
  supportsFlush _ := true
  files := files
  put := put
  create := create
  openRead := openRead
  isPresent := isPresent
  delete := delete
  rename := rename
  list := list
  makeDirs := makeDirs
  write := Stream.write
  flush := Stream.flush
  close := Stream.close
  release := Stream.release

end SegmentedJournal.Directory
