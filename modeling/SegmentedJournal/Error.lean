import SegmentedJournal.Json.Value
import SegmentedJournal.Medium.Error
import SegmentedJournal.Text.Quoted
/-!
# Errors

What a journal's operations report.  Failures of the medium are recoverable: the writer reconciles
before its next operation.  Three errors are fatal (`JournalError.isFatal`), because they say that
what is durable no longer meets what the writer knows; nothing is retried after them.  An entry
that cannot be decoded is told apart from a failing medium (`JournalError.isDecodeError`), since
during recovery it marks where durable data ends.
-/

namespace SegmentedJournal

/-- Why an operation on a journal failed. -/
inductive JournalError where
  /-- A write came after the writer was closed. -/
  | writeAfterClose
  /-- A flush came after the writer was closed. -/
  | flushAfterClose
  /-- An entry could not be appended to the open log. -/
  | writeFailure (segment : String) (source : IoError)
  /-- The open log could not be flushed. -/
  | flushFailure (segment : String) (source : IoError)
  /-- Entries between the durable ones and the oldest one still at hand are gone. -/
  | entryMissing (expected found : UInt64)
  /-- The medium holds entries that the writer has not yet written. -/
  | journalAhead (expected next : UInt64)
  /-- Several logs are incomplete. -/
  | corruptSnapshot (root : String) (incomplete : List String)
  /-- The medium failed at a path. -/
  | medium (path : String) (source : MediumError)
  /-- A segment holds something that is no entry. -/
  | invalidEntry (segment : String) (offset : Nat) (reason : String)
  /-- A log would be completed before its own start. -/
  | sequenceRegression (segment : String) (start next : UInt64)
  /-- A setting is out of range. -/
  | invalidConfig (reason : String)
  /-- The settings' document could not be read. -/
  | config (problem : Json.Problem)
  /-- Input or output failed outside the medium's operations. -/
  | io (source : IoError)
  /-- The writer crashed in an earlier operation. -/
  | poisoned
  /-- The garbage collector crashed. -/
  | collectorCrashed
  /-- Several parts failed to shut down. -/
  | shutdown (errors : List JournalError)
deriving Repr

namespace JournalError

/-- The text of a problem with a document. -/
def problemMessage : Json.Problem → String
  | .malformed => "the document is not JSON"
  | .ended => "the document ends early"
  | .unfit => "a value does not fit"

mutual

/-- The text of the error. -/
def message : JournalError → String
  | writeAfterClose => "Journal write called after journal log writer was closed"
  | flushAfterClose => "Cannot flush after closing journal log writer"
  | writeFailure segment source =>
    "Failed to write journal entry to " ++ segment ++ ": " ++ source.message
  | flushFailure segment source =>
    "Failed to flush journal entries to " ++ segment ++ ": " ++ source.message
  | entryMissing expected found =>
    s!"Journal entries are missing: expected sequence {expected}, " ++
      s!"oldest retained entry has sequence {found}"
  | journalAhead expected next =>
    s!"Journal is ahead of its writer: durable entries end before sequence {expected}, " ++
      s!"writer's next sequence is {next}"
  | corruptSnapshot root incomplete =>
    "Corrupt journal snapshot under " ++ root ++ ": multiple incomplete logs " ++
      Quoted.list incomplete
  | medium path source => "Medium operation on " ++ path ++ " failed: " ++ source.message
  | invalidEntry segment offset reason =>
    s!"Invalid journal entry in {segment} at offset {offset}: {reason}"
  | sequenceRegression segment start next =>
    s!"Cannot complete {segment}: next sequence {next} is before segment start {start}"
  | invalidConfig reason => "Invalid journal configuration: " ++ reason
  | config problem => "Journal configuration error: " ++ problemMessage problem
  | io source => "Journal I/O error: " ++ source.message
  | poisoned => "Journal log writer state lock poisoned"
  | collectorCrashed => "Journal garbage collector thread panicked"
  | shutdown errors => "Journal shutdown failed: " ++ "; ".intercalate (messages errors)

/-- The texts of several errors. -/
def messages : List JournalError → List String
  | [] => []
  | error :: errors => error.message :: messages errors

end

mutual

/-- Whether the error means that entries are already lost or contradicted. -/
def isFatal : JournalError → Bool
  | entryMissing _ _ => true
  | journalAhead _ _ => true
  | corruptSnapshot _ _ => true
  | shutdown errors => anyFatal errors
  | _ => false

/-- Whether one of several errors is fatal. -/
def anyFatal : List JournalError → Bool
  | [] => false
  | error :: errors => error.isFatal || anyFatal errors

end

/-- Whether the error is an entry that cannot be decoded. -/
def isDecodeError : JournalError → Bool
  | invalidEntry _ _ _ => true
  | _ => false

theorem messages_eq_map (errors : List JournalError) : messages errors = errors.map message := by
  induction errors with
  | nil => rfl
  | cons error errors ih => simp [messages, ih]

theorem anyFatal_eq_any (errors : List JournalError) : anyFatal errors = errors.any isFatal := by
  induction errors with
  | nil => rfl
  | cons error errors ih => simp [anyFatal, ih]

end JournalError

end SegmentedJournal
