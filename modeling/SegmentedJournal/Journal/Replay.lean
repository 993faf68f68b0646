import SegmentedJournal.Journal.Snapshot
import SegmentedJournal.Segment.Reader
/-!
# Journals — replay

Reading a journal's entries in order, from a sequence number on, through every log that reaches
past it.  Each entry must carry the number expected next: entries below it were read before, from
an overlapping log, and are passed over; an entry above it means that some are missing, and so does
a log that starts above it.

A log's name says where it ends.  Octets past that are what a failure left behind, and are never
looked at.  Octets that are no entry end the replay quietly in the incomplete log, where a failure
leaves them, and are an error in a complete one.
-/

namespace SegmentedJournal

/-- A reader of a journal. -/
structure Replay where
  /-- The logs still to be opened, in order. -/
  pending : List Segment
  /-- The log being read. -/
  current : Option SegmentReader := none
  /-- The sequence number expected next. -/
  next : UInt64
deriving DecidableEq, Repr

namespace Replay

variable {σ η : Type} [Storage σ η]

/-- The logs of a snapshot that reach past a sequence number. -/
def logsFrom (snapshot : Snapshot) (start : UInt64) (withIncomplete : Bool) : List Segment :=
  let logs := if withIncomplete then snapshot.logs ++ snapshot.current.toList else snapshot.logs
  logs.filter fun log => start < log.stop

/-- Starts a replay at a sequence number; the first log must not start above it. -/
def start (journal : Journal) (start : UInt64) (withIncomplete : Bool) :
    Action JournalError (Medium σ) Replay := do
  let pending := logsFrom (← journal.snapshot) start withIncomplete
  match pending.head? with
  | some first => if start < first.start then Action.fail (.entryMissing start first.start)
  | none => pure ()
  return { pending, next := start }

/-- What a log yields when the entry with a given number is expected. -/
inductive Yield where
  /-- The entry. -/
  | entry (entry : Entry) (reader : SegmentReader)
  /-- Nothing more. -/
  | exhausted
  /-- Nothing more, nor will any other log. -/
  | torn
  /-- An error, as often as it is asked. -/
  | refused (error : JournalError) (reader : SegmentReader)

/-- What a log yields when the entry `next` is expected. -/
def yield (next : UInt64) (reader : SegmentReader) : Yield :=
  if reader.segment.stop ≤ next then .exhausted
  else
    match reader.seek next with
    | (.ok none, _) => .exhausted
    | (.ok (some entry), reader) =>
      if next < entry.sequence then .refused (.entryMissing next entry.sequence) reader
      else .entry entry reader
    | (.error error, reader) =>
      if error.isDecodeError && reader.segment.isIncomplete then .torn else .refused error reader

/-- Hands out an entry, and expects the one after it. -/
def deliver (entry : Entry) : Action JournalError (Replay × Medium σ) (Option Entry) :=
  fun (replay, medium) =>
    match (Action.successor replay.next : Action JournalError (Medium σ) UInt64) medium with
    | .ok next medium => .ok (some entry) ({ replay with next }, medium)
    | .error error medium => .error error (replay, medium)

/-- Opens one log after the other until one yields something. -/
def readPending (next : UInt64) :
    List Segment → Medium σ →
      EStateM.Result (Failure JournalError) (Replay × Medium σ) (Option Entry)
  | [], medium => .ok none ({ pending := [], next }, medium)
  | segment :: pending, medium =>
    if next < segment.start then
      .error (.error (.entryMissing next segment.start)) ({ pending, next }, medium)
    else
      match SegmentReader.load segment medium with
      | .error error medium => .error error ({ pending, next }, medium)
      | .ok reader medium =>
        match yield next reader with
        | .entry entry reader => deliver entry ({ pending, current := some reader, next }, medium)
        | .exhausted => readPending next pending medium
        | .torn => .ok none ({ pending := [], next }, medium)
        | .refused error reader =>
          .error (.error error) ({ pending, current := some reader, next }, medium)

/-- The next entry, or nothing once every log is exhausted. -/
def read : Action JournalError (Replay × Medium σ) (Option Entry) := fun (replay, medium) =>
  match replay.current with
  | none => readPending replay.next replay.pending medium
  | some reader =>
    match yield replay.next reader with
    | .entry entry reader => deliver entry ({ replay with current := some reader }, medium)
    | .exhausted => readPending replay.next replay.pending medium
    | .torn => .ok none ({ replay with pending := [], current := none }, medium)
    | .refused error reader =>
      .error (.error error) ({ replay with current := some reader }, medium)

/-- An entry handed out moves the expected number on by one. -/
theorem next_of_deliver {entry : Entry} {e : Option Entry} {replay replay' : Replay}
    {medium medium' : Medium σ}
    (h : deliver entry (replay, medium) = .ok e (replay', medium')) :
    replay'.next.toNat = replay.next.toNat + 1 := by
  unfold deliver at h
  dsimp only at h
  split at h
  · next hnext =>
    cases h
    exact (Action.toNat_of_successor hnext).1
  · cases h

theorem next_of_readPending {next : UInt64} {pending : List Segment} {entry : Entry}
    {replay' : Replay} {medium medium' : Medium σ}
    (h : readPending next pending medium = .ok (some entry) (replay', medium')) :
    replay'.next.toNat = next.toNat + 1 := by
  induction pending generalizing medium with
  | nil => simp [readPending] at h
  | cons segment pending ih =>
    unfold readPending at h
    split at h
    · cases h
    · split at h
      · cases h
      · split at h
        · exact next_of_deliver h
        · exact ih h
        · cases h
        · cases h

theorem next_of_read {entry : Entry} {replay replay' : Replay} {medium medium' : Medium σ}
    (h : read (replay, medium) = .ok (some entry) (replay', medium')) :
    replay'.next.toNat = replay.next.toNat + 1 := by
  unfold read at h
  dsimp only at h
  split at h
  · exact next_of_readPending h
  · split at h
    · have := next_of_deliver h
      exact this
    · exact next_of_readPending h
    · cases h
    · cases h

/-- All remaining entries; an error leaves the reader where it met it. -/
def readAll : Action JournalError (Replay × Medium σ) (List Entry) := fun (replay, medium) =>
  match _ : read (replay, medium) with
  | .ok none state => .ok [] state
  | .ok (some entry) (replay, medium) =>
    match readAll (replay, medium) with
    | .ok entries state => .ok (entry :: entries) state
    | .error error state => .error error state
  | .error error state => .error error state
termination_by state => UInt64.size - state.1.next.toNat
decreasing_by
  have := next_of_read (by assumption)
  have := replay.next.toNat_lt
  have : UInt64.size = 2 ^ 64 := rfl
  omega

end Replay

end SegmentedJournal
