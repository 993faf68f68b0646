import SegmentedJournal.Medium.Error
/-!
# Directories — errors

The errors of a file system, each with its number in the text; a path with its end marked in the
middle does not reach the file system.
-/

namespace SegmentedJournal.Directory

/-- The path leads nowhere. -/
def missing : IoError := ⟨.notFound, "No such file or directory (os error 2)"⟩

/-- The path has no name that could be given or taken away. -/
def busy : IoError := ⟨.resourceBusy, "Device or resource busy (os error 16)"⟩

/-- There is something at the path already. -/
def occupied : IoError := ⟨.alreadyExists, "File exists (os error 17)"⟩

/-- The path leads through a file. -/
def notDirectory : IoError := ⟨.notADirectory, "Not a directory (os error 20)"⟩

/-- The path leads to a directory. -/
def isDirectory : IoError := ⟨.isADirectory, "Is a directory (os error 21)"⟩

/-- A directory would lie in itself. -/
def insideItself : IoError := ⟨.invalidInput, "Invalid argument (os error 22)"⟩

/-- The path, or a name in it, is too long. -/
def tooLong : IoError := ⟨.invalidFilename, "File name too long (os error 36)"⟩

/-- The directory is not empty. -/
def notEmpty : IoError := ⟨.directoryNotEmpty, "Directory not empty (os error 39)"⟩

/-- The path ends before its last character. -/
def endsEarly : IoError := ⟨.invalidInput, "file name contained an unexpected NUL byte"⟩

end SegmentedJournal.Directory
