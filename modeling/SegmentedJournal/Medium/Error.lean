/-!
# Media — errors

What can go wrong on a medium.  A stream or an operation fails with an input/output error, which
has a kind and a text; an operation on the names of files may also find no file, or meet a failure
that was armed beforehand.
-/

namespace SegmentedJournal

/-- The kinds of input/output errors. -/
inductive IoKind where
  | notFound | permissionDenied | connectionRefused | connectionReset | hostUnreachable
  | networkUnreachable | connectionAborted | notConnected | addrInUse | addrNotAvailable
  | networkDown | brokenPipe | alreadyExists | wouldBlock | notADirectory | isADirectory
  | directoryNotEmpty | readOnlyFilesystem | staleNetworkFileHandle | invalidInput | invalidData
  | timedOut | writeZero | storageFull | notSeekable | quotaExceeded | fileTooLarge
  | resourceBusy | executableFileBusy | deadlock | crossesDevices | tooManyLinks
  | invalidFilename | argumentListTooLong | interrupted | unsupported | unexpectedEof
  | outOfMemory | other
deriving DecidableEq, Repr

namespace IoKind

/-- The name under which a kind is reported. -/
def name : IoKind → String
  | notFound => "NotFound"
  | permissionDenied => "PermissionDenied"
  | connectionRefused => "ConnectionRefused"
  | connectionReset => "ConnectionReset"
  | hostUnreachable => "HostUnreachable"
  | networkUnreachable => "NetworkUnreachable"
  | connectionAborted => "ConnectionAborted"
  | notConnected => "NotConnected"
  | addrInUse => "AddrInUse"
  | addrNotAvailable => "AddrNotAvailable"
  | networkDown => "NetworkDown"
  | brokenPipe => "BrokenPipe"
  | alreadyExists => "AlreadyExists"
  | wouldBlock => "WouldBlock"
  | notADirectory => "NotADirectory"
  | isADirectory => "IsADirectory"
  | directoryNotEmpty => "DirectoryNotEmpty"
  | readOnlyFilesystem => "ReadOnlyFilesystem"
  | staleNetworkFileHandle => "StaleNetworkFileHandle"
  | invalidInput => "InvalidInput"
  | invalidData => "InvalidData"
  | timedOut => "TimedOut"
  | writeZero => "WriteZero"
  | storageFull => "StorageFull"
  | notSeekable => "NotSeekable"
  | quotaExceeded => "QuotaExceeded"
  | fileTooLarge => "FileTooLarge"
  | resourceBusy => "ResourceBusy"
  | executableFileBusy => "ExecutableFileBusy"
  | deadlock => "Deadlock"
  | crossesDevices => "CrossesDevices"
  | tooManyLinks => "TooManyLinks"
  | invalidFilename => "InvalidFilename"
  | argumentListTooLong => "ArgumentListTooLong"
  | interrupted => "Interrupted"
  | unsupported => "Unsupported"
  | unexpectedEof => "UnexpectedEof"
  | outOfMemory => "OutOfMemory"
  | other => "Other"

/-- Every kind. -/
def all : List IoKind :=
  [.notFound, .permissionDenied, .connectionRefused, .connectionReset, .hostUnreachable,
    .networkUnreachable, .connectionAborted, .notConnected, .addrInUse, .addrNotAvailable,
    .networkDown, .brokenPipe, .alreadyExists, .wouldBlock, .notADirectory, .isADirectory,
    .directoryNotEmpty, .readOnlyFilesystem, .staleNetworkFileHandle, .invalidInput,
    .invalidData, .timedOut, .writeZero, .storageFull, .notSeekable, .quotaExceeded,
    .fileTooLarge, .resourceBusy, .executableFileBusy, .deadlock, .crossesDevices, .tooManyLinks,
    .invalidFilename, .argumentListTooLong, .interrupted, .unsupported, .unexpectedEof,
    .outOfMemory, .other]

/-- The kind that is reported under a name. -/
def ofName? (name : String) : Option IoKind :=
  all.find? fun kind => kind.name = name

end IoKind

/-- An input/output error. -/
structure IoError where
  /-- What sort of failure it is. -/
  kind : IoKind
  /-- What it says. -/
  message : String
deriving DecidableEq, Repr

/-- Why an operation on a medium failed. -/
inductive MediumError where
  /-- The medium underneath failed. -/
  | io (source : IoError)
  /-- There is no file at the path. -/
  | notFound (path : String)
  /-- A failure armed for this operation fired. -/
  | injected (operation path : String)
  /-- The medium's lock was held by a thread that crashed. -/
  | poisoned
deriving DecidableEq, Repr

namespace MediumError

/-- The text of the error. -/
def message : MediumError → String
  | io source => "I/O error: " ++ source.message
  | notFound path => "path not found: " ++ path
  | injected operation path => s!"injected {operation} failure on {path}"
  | poisoned => "medium state lock poisoned"

/-- Whether the error says that a file is absent. -/
def isNotFound : MediumError → Bool
  | io source => source.kind = .notFound
  | notFound _ => true
  | injected _ _ => false
  | poisoned => false

end MediumError

end SegmentedJournal
