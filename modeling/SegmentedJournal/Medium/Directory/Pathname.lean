/-!
# Directories — pathnames

How a file system reads a path: as steps from the root, one for each piece between slashes.  A
piece `.` stays where it is, a piece `..` goes to the directory above, and any other piece is a
name.  Empty pieces count for nothing, but a slash at the end asks for a directory.
-/

namespace SegmentedJournal.Pathname

/-- The pieces of a path between its slashes. -/
def pieces (path : String) : List String :=
  (path.toList.splitOn '/').map String.ofList

/-- One step of a walk through directories. -/
inductive Step where
  /-- Stays in the directory. -/
  | here
  /-- Goes to the directory above. -/
  | above
  /-- Goes to what has the name. -/
  | named (name : String)
deriving DecidableEq, Repr

/-- The step a piece stands for, if it is not empty. -/
def Step.ofPiece? (piece : String) : Option Step :=
  if piece = "" then none
  else if piece = "." then some .here
  else if piece = ".." then some .above
  else some (.named piece)

/-- The steps of a path. -/
def steps (path : String) : List Step :=
  (pieces path).filterMap Step.ofPiece?

/-- Whether a path asks for a directory, by a slash at its end. -/
def asksDirectory (path : String) : Bool :=
  path.toList.getLast? = some '/'

/-- Whether a piece leads nowhere else. -/
def isIdle (piece : String) : Bool :=
  piece = "" || piece = "."

/-- The pieces of the paths above one, the nearest path first; every path has its pieces from the
last.  What is idle at the end of a path is left out. -/
def shorter : List String → List (List String)
  | [] => []
  | piece :: rest =>
    if isIdle piece then shorter rest else rest.dropWhile isIdle :: shorter rest

/-- The paths above one, the nearest first.  A piece `..` counts as a name: above `a/..` is `a`. -/
def above (path : String) : List String :=
  (shorter (pieces path).reverse).map fun reversed => "/".intercalate reversed.reverse

/-- The most octets a name may have. -/
def nameLimit : Nat := 255

/-- The octets that a path, with its end marked, must stay within. -/
def pathLimit : Nat := 4096

/-- Whether a path holds the character that marks the end of paths. -/
def holdsEnd (path : String) : Bool :=
  path.toList.contains '\x00'

end SegmentedJournal.Pathname
