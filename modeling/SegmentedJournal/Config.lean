import SegmentedJournal.Error
/-!
# Settings

What a journal can be told: how large a log may grow, and whether and how often garbage is
collected.
-/

namespace SegmentedJournal

/-- The settings of a journal. -/
structure Config where
  /-- A flush that leaves a log at least this large ends it before the next write. -/
  maxLogBytes : UInt64 := 10 * 1024 * 1024
  /-- Whether the writer collects garbage beside its work. -/
  gcEnabled : Bool := true
  /-- Milliseconds between two passes of the collector. -/
  gcPeriodMs : UInt64 := 120000
deriving DecidableEq, Repr

namespace Config

/-- Refuses settings a writer cannot work with. -/
def validate (config : Config) : Except JournalError Unit :=
  if config.maxLogBytes = 0 then
    .error (.invalidConfig "max_log_size_bytes must be greater than zero")
  else if config.gcPeriodMs = 0 then
    .error (.invalidConfig "gc_period_ms must be greater than zero")
  else .ok ()

/-- The whole seconds between two passes of the collector. -/
def gcPeriodSeconds (config : Config) : UInt64 := config.gcPeriodMs / 1000

/-- The milliseconds beyond the whole seconds between two passes of the collector. -/
def gcPeriodRemainder (config : Config) : UInt64 := config.gcPeriodMs % 1000

end Config

end SegmentedJournal
