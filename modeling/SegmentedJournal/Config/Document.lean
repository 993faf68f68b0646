import SegmentedJournal.Config
import SegmentedJournal.Json.Record
/-!
# Settings — documents

Settings as a JSON document.  Every setting may be left out; what is read is validated.
-/

namespace SegmentedJournal.Config

/-- Settings of which some are still absent. -/
structure Draft where
  /-- The limit on a log. -/
  maxLogBytes : Option UInt64 := none
  /-- Whether garbage is collected. -/
  gcEnabled : Option Bool := none
  /-- The collector's period. -/
  gcPeriodMs : Option UInt64 := none

/-- The settings, each under the name that documents use. -/
def fields : List (Json.Field Draft) :=
  [{ name := "max_log_size_bytes"
     isRead := fun draft => draft.maxLogBytes.isSome
     read := fun draft input => (Json.readNat UInt64.size input).map fun (n, rest) =>
       ({ draft with maxLogBytes := some (UInt64.ofNat n) }, rest) },
   { name := "gc_enabled"
     isRead := fun draft => draft.gcEnabled.isSome
     read := fun draft input => (Json.readBool input).map fun (b, rest) =>
       ({ draft with gcEnabled := some b }, rest) },
   { name := "gc_period_ms"
     isRead := fun draft => draft.gcPeriodMs.isSome
     read := fun draft input => (Json.readNat UInt64.size input).map fun (n, rest) =>
       ({ draft with gcPeriodMs := some (UInt64.ofNat n) }, rest) }]

/-- The settings of a draft, where what is absent takes its default. -/
def ofDraft (draft : Draft) : Config :=
  let standard : Config := {}
  { maxLogBytes := draft.maxLogBytes.getD standard.maxLogBytes
    gcEnabled := draft.gcEnabled.getD standard.gcEnabled
    gcPeriodMs := draft.gcPeriodMs.getD standard.gcPeriodMs }

/-- The settings in a document. -/
def ofDocument (text : String) : Except JournalError Config := do
  match Json.readDocument fields {} (fun draft => .ok (ofDraft draft)) text with
  | .error problem => throw (.config problem)
  | .ok config =>
    config.validate
    return config

/-- The settings in a file, given what the file holds if there is one. -/
def ofFile (contents : Option Bytes) : Except JournalError Config :=
  match contents with
  | none => .error (.io ⟨.notFound, "No such file or directory (os error 2)"⟩)
  | some bytes =>
    match String.fromUTF8? ⟨bytes.toArray⟩ with
    | none => .error (.io ⟨.invalidData, "stream did not contain valid UTF-8"⟩)
    | some text => ofDocument text

/-- The document that holds the settings, without blanks. -/
def toDocument (config : Config) : String :=
  "\x7b\"max_log_size_bytes\":" ++ toString config.maxLogBytes.toNat ++
    ",\"gc_enabled\":" ++ (if config.gcEnabled then "true" else "false") ++
    ",\"gc_period_ms\":" ++ toString config.gcPeriodMs.toNat ++ "\x7d"

end SegmentedJournal.Config
