import SegmentedJournal.Proofs.Logs
/-!
# Storage of any kind

What is true of the calls of a medium whatever keeps its files, and whatever state it is in.  No
call but a listing crashes, and an error says where it comes from: a stream that refused octets or
its closing (`Medium.Refuses`), or another call (`JournalError.OfMedium`), whose error is no
failure to write (`Medium.Warrants`).  A log that has a stream keeps one while it is written to and
flushed.
-/

namespace SegmentedJournal

/-- A call of the medium answered with the error. -/
def JournalError.OfMedium (e : JournalError) : Prop := ∃ path error, e = .medium path error

theorem JournalError.OfMedium.isFatal_eq {e : JournalError} (h : e.OfMedium) :
    e.isFatal = false := by
  obtain ⟨_, _, rfl⟩ := h
  rfl

theorem JournalError.OfMedium.isWriteFailure_eq {e : JournalError} (h : e.OfMedium) :
    Writer.isWriteFailure e = false := by
  obtain ⟨_, _, rfl⟩ := h
  rfl

/-! ### Streams of any storage -/

namespace Medium

variable {σ η α : Type} [Storage σ η] {e : JournalError}

/-- A stream of such a medium can answer a writing or a closing with the error. -/
def Refuses (σ : Type) {η : Type} [Storage σ η] (source : IoError) : Prop :=
  ∃ (stream : η) (medium : Medium σ) (after : η × Medium σ),
    (∃ bytes, write bytes (stream, medium) = .error (.error source) after) ∨
      close (stream, medium) = .error (.error source) after

/-- The error is no failure to write, or a stream answered with it. -/
def Warrants (σ : Type) {η : Type} [Storage σ η] (e : JournalError) : Prop :=
  ∀ path source, e = .writeFailure path source → Refuses σ source

theorem warrants_of_not (h : Writer.isWriteFailure e = false) : Warrants σ e := by
  rintro path source rfl
  cases h

theorem warrants_writeFailure {source : IoError} (path : String) (h : Refuses σ source) :
    Warrants σ (.writeFailure path source) := by
  rintro _ _ ⟨⟩
  exact h

theorem ensures_onStorage_of_any {ε : Type} (x : EStateM ε σ α) (medium : Medium σ) :
    (onStorage x).Ensures medium (fun _ _ => True) (fun _ _ => True) := by
  rw [onStorage, Action.ensures_zoom, Action.ensures_ofEStateM]
  split <;> trivial

omit [Storage σ η] in
theorem ensures_onStream_of_any (x : EStateM IoError (η × σ) α) (stream : η) (medium : Medium σ) :
    (onStream x).Ensures (stream, medium) (fun _ _ => True) (fun _ _ => True) := by
  rw [onStream, Action.ensures_zoom, Action.ensures_ofEStateM]
  split <;> trivial

theorem ensures_consult_of_any {ε : Type} (call : Call) (medium : Medium σ)
    (Q : Option CallFault → Medium σ → Prop) (E : ε → Medium σ → Prop) :
    (consult call).Ensures medium Q E ↔ Q (CallFault.take call medium.callFaults).1
      { medium with callFaults := (CallFault.take call medium.callFaults).2 } := Iff.rfl

theorem ensures_write_refuses (bytes : Bytes) (stream : η) (medium : Medium σ) :
    (write bytes).Ensures (stream, medium) (fun _ _ => True)
      (fun source _ => Refuses σ source) := by
  refine Action.Ensures.of_run ?_ fun source after h => ⟨stream, medium, after, .inl ⟨bytes, h⟩⟩
  rw [write, Action.ensures_ite]
  exact ⟨fun _ => trivial, fun _ => ensures_onStream_of_any _ stream medium⟩

theorem ensures_close_refuses (stream : η) (medium : Medium σ) :
    (close : Action IoError (η × Medium σ) Unit).Ensures (stream, medium) (fun _ _ => True)
      (fun source _ => Refuses σ source) := by
  refine Action.Ensures.of_run ?_ fun source after h => ⟨stream, medium, after, .inr h⟩
  rw [close, Action.ensures_bind, Action.ensures_onSecond, ensures_consult_of_any]
  dsimp only
  rw [Action.ensures_ite]
  exact ⟨fun _ => trivial, fun _ => ensures_onStream_of_any _ stream _⟩

theorem ensures_isPresent_of_any (path : String) (medium : Medium σ) :
    (isPresent path).Ensures medium (fun _ _ => True) (fun _ _ => True) := by
  rw [isPresent, ensures_counted, guarded, Action.ensures_bind, Action.ensures_bind,
    ensures_consult_of_any, Action.ensures_ite]
  exact ⟨fun _ => trivial, fun _ => ensures_onStorage_of_any _ _⟩

end Medium

/-! ### Open logs -/

namespace OpenLog

open Medium (Refuses Warrants)

variable {σ η : Type} [Storage σ η] {log : OpenLog η}

theorem ensures_write_of_stream (h : log.stream.isSome = true) (entry : Entry)
    (medium : Medium σ) :
    (write entry).Ensures (log, medium)
      (fun _ s => s.1.segment = log.segment ∧ s.1.stream.isSome = true ∧
        log.written + entry.encodedLength = s.1.written)
      (fun e _ => Warrants σ e) := by
  obtain ⟨stream, hstream⟩ := Option.isSome_iff_exists.1 h
  rw [write, Action.ensures_bind, Action.ensures_get]
  dsimp only
  rw [hstream]
  dsimp only
  rw [Action.ensures_bind, ensures_onStream]
  refine (Medium.ensures_write_refuses _ stream medium).mono ?_ ?_
  · rintro _ ⟨stream', after⟩ -
    exact ⟨rfl, rfl, rfl⟩
  · intro source _ hrefuses
    exact Medium.warrants_writeFailure _ hrefuses

theorem ensures_writeAll_of_stream (h : log.stream.isSome = true) (entries : List Entry)
    (medium : Medium σ) :
    (writeAll entries).Ensures (log, medium)
      (fun _ s => s.1.segment = log.segment ∧ s.1.stream.isSome = true ∧
        log.written + entries.length ≤ s.1.written)
      (fun e _ => Warrants σ e) := by
  refine ensures_writeAll (I := fun before s => s.1.segment = log.segment ∧
    s.1.stream.isSome = true ∧ log.written + before.length ≤ s.1.written) ?_
    ⟨rfl, h, Nat.le_refl _⟩
  rintro before entry _ ⟨log', after⟩ - ⟨hsegment, hstream, hwritten⟩
  refine (ensures_write_of_stream hstream entry after).mono ?_ (fun _ _ h => h)
  rintro _ s ⟨hsegment', hstream', hwritten'⟩
  refine ⟨hsegment'.trans hsegment, hstream', ?_⟩
  have hlength := entry.encodedLength_eq
  rw [List.length_append, List.length_singleton]
  dsimp only at hwritten hwritten'
  omega

theorem ensures_flush_of_stream (h : log.stream.isSome = true) (medium : Medium σ) :
    flush.Ensures (log, medium)
      (fun _ s => s.1.segment = log.segment ∧ s.1.stream.isSome = true ∧
        s.1.written = log.written) (fun _ _ => True) := by
  obtain ⟨stream, hstream⟩ := Option.isSome_iff_exists.1 h
  rw [flush, Action.ensures_bind, Action.ensures_get]
  dsimp only
  rw [hstream]
  dsimp only
  rw [ensures_onStream]
  exact (Medium.ensures_onStream_of_any _ stream medium).mono (fun _ _ _ => ⟨rfl, rfl, rfl⟩)
    (fun _ _ _ => trivial)

theorem ensures_closeStream_refuses (stream : η) (medium : Medium σ) :
    (closeStream stream).Ensures medium (fun _ _ => True) (fun source _ => Refuses σ source) := by
  unfold Action.Ensures closeStream
  rcases (Medium.ensures_close_refuses stream medium).ok_or_error with
    ⟨_, _, hclose, -⟩ | ⟨source, _, hclose, hrefuses⟩
  · rw [hclose]
    trivial
  · rw [hclose]
    exact hrefuses

theorem ensures_abandon_of_any (log : OpenLog η) (medium : Medium σ) :
    abandon.Ensures (log, medium) (fun _ _ => True) (fun _ _ => False) := by
  rw [abandon, Action.ensures_bind, ensures_takeStream]
  cases log.stream with
  | none => trivial
  | some stream =>
      dsimp only
      rw [Action.ensures_bind, Action.ensures_attempt, Action.ensures_onSecond]
      exact (ensures_closeStream_refuses stream medium).mono (fun _ _ _ => trivial)
        (fun _ _ _ => trivial)

end OpenLog

/-! ### Calls of a journal -/

namespace Journal

open Writer (isWriteFailure)

variable {σ η : Type} [Storage σ η]

theorem ends_listSegments (journal : Journal) (kind : SegmentKind) (medium : Medium σ) :
    (journal.listSegments kind).Ends medium (fun _ _ => True)
      (fun e _ => isWriteFailure e = false) True := by
  rw [listSegments, Action.ends_bind, listDir, Action.ends_mapError]
  exact (Action.ends_run _ _).mono (fun _ _ _ => trivial) (fun _ _ _ => rfl)

theorem isWriteFailure_of_ofSegments {root : String} {checkpoints logs : List Segment}
    {e : JournalError} (h : Snapshot.ofSegments root checkpoints logs = .error e) :
    isWriteFailure e = false := by
  unfold Snapshot.ofSegments at h
  dsimp only at h
  split at h <;> cases h
  rfl

theorem ends_snapshot_of_any (journal : Journal) (medium : Medium σ) :
    journal.snapshot.Ends medium (fun _ _ => True) (fun e _ => isWriteFailure e = false) True := by
  rw [snapshot, Action.ends_bind]
  refine (journal.ends_listSegments .checkpoint medium).mono (fun _ listed _ => ?_)
    (fun _ _ h => h)
  rw [Action.ends_bind]
  refine (journal.ends_listSegments .log listed).mono (fun _ _ _ => ?_) (fun _ _ h => h)
  rw [Action.ends_bind, Action.ends_ofExcept]
  refine ⟨fun snapshot _ => ?_, fun e h => isWriteFailure_of_ofSegments h⟩
  dsimp only
  rw [Action.ends_ite]
  exact ⟨fun _ => trivial, fun _ => trivial⟩

theorem ends_scan (segment : Segment) (medium : Medium σ) :
    (scan segment).Ends medium (fun _ _ => True) (fun e _ => isWriteFailure e = false) True := by
  rw [scan, Action.ends_bind, SegmentReader.load, Action.ends_bind, Action.ends_mapError]
  refine (Action.ends_run _ _).mono (fun contents _ _ => ?_) (fun _ _ _ => rfl)
  rw [Action.ends_bind, Action.ends_ofExcept]
  refine ⟨fun _ _ => trivial, fun e he => ?_⟩
  cases contents with
  | ok _ => cases he
  | error _ =>
      cases he
      rfl

theorem ends_probe (journal : Journal) (medium : Medium σ) :
    journal.probe.Ends medium (fun _ _ => True) (fun e _ => isWriteFailure e = false) True := by
  rw [probe, Action.ends_bind]
  refine (journal.ends_snapshot_of_any medium).mono (fun snapshot seen _ => ?_) (fun _ _ h => h)
  cases snapshot.current with
  | none => trivial
  | some current =>
      dsimp only
      rw [Action.ends_bind]
      exact (ends_scan current seen).mono (fun _ _ _ => trivial) (fun _ _ h => h)

/-- A renaming whose result is known. -/
theorem ensures_renamed (source target : String) (result : Option Segment) (medium : Medium σ) :
    (do
      (Medium.rename source target).mapError (.medium source)
      return result : Action JournalError (Medium σ) (Option Segment)).Ensures medium
      (fun _ _ => True) (fun e _ => e.OfMedium) := by
  rw [Action.ensures_bind, Action.ensures_mapError, Medium.rename, Medium.ensures_counted]
  exact (Medium.ensures_onStorage_of_any _ medium).mono (fun _ _ _ => trivial)
    (fun _ _ _ => ⟨_, _, rfl⟩)

theorem ensures_removed (path : String) (medium : Medium σ) :
    ((Medium.delete path).mapError (.medium path) : Action JournalError (Medium σ) Unit).Ensures
      medium (fun _ _ => True) (fun e _ => e.OfMedium) := by
  rw [Action.ensures_mapError, Medium.delete, Medium.ensures_counted]
  exact (Medium.ensures_onStorage_of_any _ medium).mono (fun _ _ _ => trivial)
    (fun _ _ _ => ⟨_, _, rfl⟩)

theorem ensures_removeDuplicate (path : String) (medium : Medium σ) :
    (removeDuplicate path).Ensures medium (fun _ _ => True)
      (fun e _ => e.OfMedium) := by
  rw [removeDuplicate, Action.ensures_bind]
  exact ensures_removed path _

theorem ensures_asked (path : String) (medium : Medium σ) :
    ((Medium.isPresent path).mapError (.medium path) : Action JournalError (Medium σ) Bool).Ensures
      medium (fun _ _ => True) (fun e _ => e.OfMedium) := by
  rw [Action.ensures_mapError]
  exact (Medium.ensures_isPresent_of_any path medium).mono (fun _ _ _ => trivial)
    (fun _ _ _ => ⟨_, _, rfl⟩)

/-- A sealing fails only as the medium does. -/
theorem ends_sealAt (journal : Journal) (frontier : Frontier) (medium : Medium σ) :
    (journal.sealAt frontier).Ends medium (fun _ _ => True) (fun e _ => e.OfMedium)
      True := by
  unfold sealAt
  split
  · trivial
  · rw [Action.ends_bind]
    exact (ensures_removed _ medium).ends.mono (fun _ _ _ => trivial) (fun _ _ h => h)
  · rw [Action.ends_bind, Action.ends_successor]
    split
    · trivial
    rw [Action.ends_bind]
    refine (ensures_asked _ medium).ends.mono (fun _ asked _ => ?_) (fun _ _ h => h)
    dsimp only
    rw [Action.ends_ite]
    refine ⟨fun _ => ?_, fun _ => (ensures_renamed _ _ _ asked).ends⟩
    rw [Action.ends_bind]
    exact (ensures_removeDuplicate _ asked).ends.mono
      (fun _ removed _ => (ensures_renamed _ _ _ removed).ends) (fun _ _ h => h)

theorem ensures_complete_of_any (journal : Journal) (segment : Segment) (next : UInt64)
    (medium : Medium σ) :
    (journal.complete segment next).Ensures medium (fun _ _ => True)
      (fun e _ => isWriteFailure e = false) := by
  have hmedium (e : JournalError) (_ : Medium σ) (h : e.OfMedium) : isWriteFailure e = false :=
    h.isWriteFailure_eq
  rw [complete, Action.ensures_ite]
  refine ⟨fun _ => rfl, fun _ => ?_⟩
  rw [Action.ensures_ite]
  constructor
  · intro _
    rw [Action.ensures_bind, discardEmpty, Action.ensures_bind]
    refine (ensures_asked _ medium).mono (fun _ asked _ => ?_) hmedium
    rw [Action.ensures_ite]
    exact ⟨fun _ => (ensures_removed _ asked).mono (fun _ _ _ => trivial) hmedium,
      fun _ => trivial⟩
  · intro _
    rw [Action.ensures_bind]
    refine (ensures_asked _ medium).mono (fun _ asked _ => ?_) hmedium
    rw [Action.ensures_bind]
    refine (ensures_asked _ asked).mono (fun _ known _ => ?_) hmedium
    rw [Action.ensures_ite]
    refine ⟨fun _ => ?_, fun _ => ?_⟩
    · dsimp only
      rw [Action.ensures_ite]
      have hrenamed (source target : String) (result : Option Segment) (after : Medium σ) :=
        (ensures_renamed source target result after).mono (fun _ _ _ => trivial) hmedium
      refine ⟨fun _ => ?_, fun _ => hrenamed _ _ _ known⟩
      rw [Action.ensures_bind]
      exact (ensures_removeDuplicate _ known).mono (fun _ removed _ => hrenamed _ _ _ removed)
        hmedium
    · rw [Action.ensures_ite]
      exact ⟨fun _ => trivial, fun _ => trivial⟩

end Journal

namespace OpenLog

open Medium (Warrants)

variable {σ η : Type} [Storage σ η]

theorem ensures_create_of_any (journal : Journal) (start : UInt64) (medium : Medium σ) :
    (create journal start).Ensures medium
      (fun log _ => log.segment.start = start ∧ log.stream.isSome = true ∧ log.written = 0)
      (fun e _ => e.OfMedium) := by
  rw [create, Action.ensures_bind, Action.ensures_mapError, Medium.create, Medium.ensures_counted]
  exact (Medium.ensures_onStorage_of_any _ medium).mono (fun _ _ _ => ⟨rfl, rfl, rfl⟩)
    (fun _ _ _ => ⟨_, _, rfl⟩)

/-- A commit that fails to write has failed to close the stream. -/
theorem ensures_commit_of_any (journal : Journal) (next : UInt64) (log : OpenLog η)
    (medium : Medium σ) :
    (commit journal next).Ensures (log, medium) (fun _ _ => True) (fun e _ => Warrants σ e) := by
  have hcomplete (given : OpenLog η) (after : Medium σ) :
      ((journal.complete log.segment next).onSecond : Action JournalError (OpenLog η × Medium σ) _
        ).Ensures (given, after) (fun _ _ => True) (fun e _ => Warrants σ e) := by
    rw [Action.ensures_onSecond]
    exact (journal.ensures_complete_of_any _ _ after).mono (fun _ _ _ => trivial)
      (fun _ _ h => Medium.warrants_of_not h)
  rw [commit, Action.ensures_bind, Action.ensures_get]
  dsimp only
  rw [Action.ensures_bind, ensures_takeStream]
  cases log.stream with
  | none => exact hcomplete _ medium
  | some stream =>
      dsimp only
      rw [Action.ensures_bind, Action.ensures_onSecond, Action.ensures_mapError]
      exact (ensures_closeStream_refuses stream medium).mono (fun _ after _ => hcomplete _ after)
        (fun _ _ h => Medium.warrants_writeFailure _ h)

end OpenLog

end SegmentedJournal
