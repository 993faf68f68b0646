import SegmentedJournal.Medium.Directory.Tree
/-!
# Directories — streams

A stream writes to the file it was opened on, wherever that is moved to and even after it is
removed, at the stream's own offset, and through a buffer.
-/

namespace SegmentedJournal.Directory

/-- Octets a stream holds back before it writes them to the file. -/
def bufferSize : Nat := 8192

/-- A stream to a file. -/
structure Stream where
  /-- The file's number. -/
  number : Nat
  /-- Where in the file the next octets go. -/
  offset : Nat := 0
  /-- Octets held back. -/
  buffer : Bytes := []
  /-- Whether the stream is open. -/
  isOpen : Bool := true
deriving DecidableEq, Repr

namespace Stream

/-- The contents with octets at an offset; a gap before them is filled with zeros. -/
def overwrite (contents : Bytes) (offset : Nat) (bytes : Bytes) : Bytes :=
  if bytes.isEmpty then contents
  else
    contents.take offset ++ List.replicate (offset - contents.length) 0 ++ bytes ++
      contents.drop (offset + bytes.length)

/-- Writes octets to the file at the stream's offset. -/
def writeThrough (bytes : Bytes) : Stream × Directory → Stream × Directory
  | (stream, tree) =>
    let contents := tree.contentsOf stream.number
    ({ stream with offset := stream.offset + bytes.length },
      tree.setContents stream.number (overwrite contents stream.offset bytes))

/-- Writes what is held back to the file. -/
def drain : Stream × Directory → Stream × Directory
  | (stream, tree) => writeThrough stream.buffer ({ stream with buffer := [] }, tree)

/-- The error of using a stream that is closed. -/
def closedError : IoError := ⟨.brokenPipe, "stream already closed"⟩

/-- Writes octets into the buffer; what does not fit beside the rest drains it first, and what
is larger than the buffer goes to the file. -/
def write (bytes : Bytes) : EStateM IoError (Stream × Directory) Unit := fun (stream, tree) =>
  if stream.isOpen then
    let hold (state : Stream × Directory) : Stream × Directory :=
      ({ state.1 with buffer := state.1.buffer ++ bytes }, state.2)
    if bytes.length < bufferSize - stream.buffer.length then .ok () (hold (stream, tree))
    else
      let drained :=
        if bufferSize - stream.buffer.length < bytes.length then drain (stream, tree)
        else (stream, tree)
      .ok () (if bufferSize ≤ bytes.length then writeThrough bytes drained else hold drained)
  else .error closedError (stream, tree)

/-- Writes what is held back to the file. -/
def flush : EStateM IoError (Stream × Directory) Unit := fun (stream, tree) =>
  if stream.isOpen then .ok () (drain (stream, tree)) else .error closedError (stream, tree)

/-- Writes what is held back to the file and closes the stream. -/
def close : EStateM IoError (Stream × Directory) Unit := fun (stream, tree) =>
  if stream.isOpen then
    let (stream, tree) := drain (stream, tree)
    .ok () ({ stream with isOpen := false }, tree)
  else .ok () (stream, tree)

/-- Lets a stream go: what it holds back is still written. -/
def release (stream : Stream) (tree : Directory) : Directory :=
  if stream.isOpen then (drain (stream, tree)).2 else tree

end Stream

end SegmentedJournal.Directory
