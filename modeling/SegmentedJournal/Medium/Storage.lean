import SegmentedJournal.Bytes
import SegmentedJournal.Medium.Error
import SegmentedJournal.Medium.PathMap
/-!
# Media — storage

What keeps the files of a medium: a state `σ` with streams `η` to write through.  A stream is a
value of its own, beside the state; nothing written through it need be in a file before it is
flushed, and on some storage not before it is closed.

Opening a file for reading answers with what reading it to the end will give.
-/

namespace SegmentedJournal

/-- Storage with states `σ` and streams `η`. -/
class Storage (σ : Type) (η : outParam Type) where
  /-- What the storage is called. -/
  name : σ → String
  /-- Whether what a stream has flushed is in the file. -/
  supportsFlush : σ → Bool
  /-- The files and what they hold. -/
  files : σ → PathMap Bytes
  /-- The storage with a file put in place, whatever was there. -/
  put : String → Bytes → σ → σ
  /-- Makes an empty file and a stream to it. -/
  create : String → EStateM MediumError σ η
  /-- Opens a file, for reading it to the end. -/
  openRead : String → EStateM MediumError σ (Except IoError Bytes)
  /-- Whether there is something at a path. -/
  isPresent : String → EStateM MediumError σ Bool
  /-- Removes a file. -/
  delete : String → EStateM MediumError σ Unit
  /-- Gives a file another path. -/
  rename : String → String → EStateM MediumError σ Unit
  /-- The names of the files directly in a directory, in order. -/
  list : String → EStateM MediumError σ (List String)
  /-- Makes a directory and those above it. -/
  makeDirs : String → EStateM MediumError σ Unit
  /-- Writes octets to a stream. -/
  write : Bytes → EStateM IoError (η × σ) Unit
  /-- Flushes a stream. -/
  flush : EStateM IoError (η × σ) Unit
  /-- Closes a stream; closing it again changes nothing. -/
  close : EStateM IoError (η × σ) Unit
  /-- What is left when a stream is let go without being closed. -/
  release : η → σ → σ

end SegmentedJournal
