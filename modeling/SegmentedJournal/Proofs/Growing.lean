import SegmentedJournal.Proofs.Moving
import SegmentedJournal.Proofs.Reached
/-!
# Writers that go on at a number

Where nothing is armed, a writer that goes on at a number touches nothing that starts before it.
What it does to the files concerns logs that start at the number or behind it
(`Journal.Confined`), so that the segments before the number are as they were, and no log is
incomplete but the writer's own (`Journal.Grown`).  Each part of an operation keeps that
(`Writer.Growing.ensures_logForNext`, `Writer.Growing.ensures_push`,
`Writer.Growing.ensures_finish`), whatever the number has come to: also where a name that the
writer gives a log is none that can be read.
-/

namespace SegmentedJournal

open Memory (Stream)
open Medium (Keeps Quieter)

/-! ### Files behind a number -/

namespace Journal

variable {journal : Journal} {n s : UInt64} {base files files' files'' : PathMap Bytes}
  {own : Option Segment} {log : Segment} {path : String}

/-- Only files of logs that start at a number were changed. -/
def Confined (journal : Journal) (s : UInt64) (files files' : PathMap Bytes) : Prop :=
  ∀ path, (∀ stop, path ≠ (journal.log s stop).location) → files'.get? path = files.get? path

namespace Confined

theorem refl (journal : Journal) (s : UInt64) (files : PathMap Bytes) :
    journal.Confined s files files :=
  fun _ _ => rfl

theorem of_eq (h : files' = files) : journal.Confined s files files' :=
  h ▸ refl journal s files

theorem trans (h : journal.Confined s files files') (h' : journal.Confined s files' files'') :
    journal.Confined s files files'' :=
  fun path hpath => (h' path hpath).trans (h path hpath)

/-- Only one of the files was changed. -/
theorem of_ne {stop : UInt64} (h : ∀ path, path ≠ (journal.log s stop).location →
    files'.get? path = files.get? path) : journal.Confined s files files' :=
  fun path hpath => h path (hpath stop)

theorem erase {stop : UInt64} (hfiles : files' = files.erase (journal.log s stop).location) :
    journal.Confined s files files' :=
  of_ne fun path hne => by rw [hfiles, PathMap.get?_erase, if_neg hne.symm]

theorem moved {stop stop' : UInt64} (hfiles : files' =
      files.moved (journal.log s stop).location (journal.log s stop').location) :
    journal.Confined s files files' :=
  fun path hpath => by rw [hfiles, PathMap.get?_moved_of_ne (hpath stop) (hpath stop')]

end Confined

/-- Since the files were `base`, only logs that start at a number or behind it were changed, and
none but one of them can be incomplete. -/
structure Grown (journal : Journal) (n : UInt64) (base files : PathMap Bytes)
    (own : Option Segment) : Prop where
  /-- What starts before the number is as it was. -/
  before : ∀ segment, journal.Places segment → segment.start < n →
    files.get? segment.location = base.get? segment.location
  /-- No other log is incomplete. -/
  only : ∀ segment, journal.Has files .log segment → segment.stop = unknownStop →
    own = some segment

namespace Grown

/-- Changes of logs that start behind the number. -/
theorem confined (h : journal.Grown n base files own) (hs : n ≤ s)
    (hown : ∀ log ∈ own, log = journal.log s unknownStop)
    (hfiles : journal.Confined s files files') :
    journal.Grown n base files' (some (journal.log s unknownStop)) := by
  refine ⟨fun segment hplaces hlt => ?_, fun segment hhas hstop => ?_⟩
  · refine (hfiles _ fun stop heq => ?_).trans (h.before segment hplaces hlt)
    rw [hplaces.eq_log heq] at hlt
    exact UInt64.not_lt.2 hs hlt
  · by_cases hnamed : ∃ stop, segment.location = (journal.log s stop).location
    · obtain ⟨stop, heq⟩ := hnamed
      have hsegment := hhas.places.eq_log heq
      rw [hsegment] at hstop ⊢
      rw [show stop = unknownStop from hstop]
    · have hpresent := hhas.present
      rw [PathMap.contains, hfiles _ fun stop heq => hnamed ⟨stop, heq⟩] at hpresent
      have hsome := h.only segment ⟨hhas.places, hhas.kind_eq, hpresent⟩ hstop
      rw [hown segment hsome]

/-- The log is gone. -/
theorem gone (h : journal.Grown n base files (some log)) (hnone : files.get? log.location = none) :
    journal.Grown n base files none := by
  refine ⟨h.before, fun segment hhas hstop => ?_⟩
  obtain rfl : log = segment := Option.some.inj (h.only segment hhas hstop)
  obtain ⟨contents, hget⟩ := PathMap.contains_iff.1 hhas.present
  rw [hnone] at hget
  cases hget

/-- The only log that was incomplete is moved to where it is complete. -/
theorem of_moved (h : journal.Opens files (some log)) (hn : n ≠ unknownStop) :
    journal.Grown n (files.moved log.location (journal.log log.start n).location)
      (files.moved log.location (journal.log log.start n).location) none := by
  have hopens := h.of_moving rfl hn .arrived
  rw [PathMap.contains, PathMap.get?_moved_source (h.location_ne hn)] at hopens
  exact ⟨fun _ _ _ => rfl, fun segment hhas hstop => (hopens segment).2 ⟨hhas, hstop⟩⟩

end Grown

end Journal

/-! ### Calls where nothing is armed -/

namespace Medium

variable {stream : Stream} {medium : Medium Memory} {source target : String} {bytes : Bytes}

/-- A renaming moves a file, or changes nothing. -/
theorem ensures_rename_or_not (source target : String) (medium : Medium Memory) :
    (rename source target).Ensures medium
      (fun _ after => Quieter medium after ∧ source ≠ target ∧
        after.storage.files = medium.storage.files.moved source target)
      (fun _ after => Keeps medium after) := by
  simp only [rename, ensures_counted, ensures_onStorage, quieter_counters, keeps_counters]
  simp only [Storage.rename, Memory.rename]
  cases htake : Fault.take? .rename medium.storage.faults with
  | some faults => exact (foiled_storage (Fault.length_of_take?_some htake)).toKeeps
  | none =>
      cases htarget : medium.storage.files.contains target with
      | true => exact .refl medium
      | false =>
          cases hsource : medium.storage.files.get? source with
          | none => exact .refl medium
          | some contents =>
              refine ⟨quieter_storage rfl (Nat.le_refl _), ?_, (PathMap.moved_of_some hsource).symm⟩
              rintro rfl
              rw [PathMap.contains, hsource] at htarget
              cases htarget

/-- Where nothing is armed a stream that can be used takes what is written, and holds it back. -/
theorem ensures_write_pending (bytes : Bytes) (hlive : stream.phase = .live)
    (hquiet : medium.armed = 0) :
    (write bytes).Ensures (stream, medium)
      (fun _ s => s.1 = { stream with pending := stream.pending ++ bytes } ∧ Keeps medium s.2)
      (fun _ _ => False) := by
  rw [write, Action.ensures_ite]
  refine ⟨fun hempty => ⟨?_, .refl medium⟩, fun _ => ?_⟩
  · rw [List.isEmpty_iff.1 hempty, List.append_nil]
  · rw [ensures_onStream]
    simp only [Storage.write, Stream.write, Stream.refusal?, hlive, (faults_of_armed hquiet).1,
      Fault.takeWrite]
    exact ⟨trivial, quieter_storage rfl (Nat.zero_le _), rfl⟩

theorem ensures_write_of_quiet (bytes : Bytes) (hlive : stream.phase = .live)
    (hquiet : medium.armed = 0) :
    (write bytes).Ensures (stream, medium)
      (fun _ s => s.1.phase = .live ∧ s.1.path = stream.path ∧ Keeps medium s.2)
      (fun _ _ => False) := by
  refine (ensures_write_pending bytes hlive hquiet).mono ?_ (fun _ _ h => h)
  rintro _ ⟨_, after⟩ ⟨rfl, hkeeps⟩
  exact ⟨hlive, rfl, hkeeps⟩

/-- It publishes what it held back, or holds it back still where only closing publishes. -/
theorem ensures_flush_published (hlive : stream.phase = .live) (hquiet : medium.armed = 0) :
    (flush : Action IoError (Stream × Medium Memory) Unit).Ensures (stream, medium)
      (fun _ s => match medium.storage.publishing with
        | .onClose => s = (stream, medium)
        | .onFlush => s.1 = { stream with pending := [] } ∧ Quieter medium s.2 ∧
          s.2.storage.files = (medium.storage.publish stream.path stream.pending false).files)
      (fun _ _ => False) := by
  rw [flush, ensures_onStream]
  simp only [Storage.flush, Stream.flush, Stream.refusal?, hlive]
  cases hpublishing : medium.storage.publishing with
  | onClose => trivial
  | onFlush =>
      simp only [(faults_of_armed hquiet).1, Fault.takeFlush]
      refine ⟨trivial, quieter_storage ?_ ?_, ?_⟩
      · rw [Memory.publishing_publish]
        exact hpublishing.symm
      · rw [Memory.faults_publish]
        exact Nat.zero_le _
      · rw [← hpublishing, ← (faults_of_armed hquiet).1]

/-- It publishes to its own file only. -/
theorem ensures_flush_of_quiet (hlive : stream.phase = .live) (hquiet : medium.armed = 0) :
    (flush : Action IoError (Stream × Medium Memory) Unit).Ensures (stream, medium)
      (fun _ s => s.1.phase = .live ∧ s.1.path = stream.path ∧ Quieter medium s.2 ∧
        ∀ path, path ≠ stream.path →
          s.2.storage.files.get? path = medium.storage.files.get? path)
      (fun _ _ => False) := by
  refine (ensures_flush_published hlive hquiet).mono ?_ (fun _ _ h => h)
  rintro _ ⟨stream', after⟩ h
  cases hpublishing : medium.storage.publishing with
  | onClose =>
      rw [hpublishing] at h
      obtain ⟨rfl, rfl⟩ := Prod.mk.inj h
      exact ⟨hlive, rfl, .refl _, fun _ _ => rfl⟩
  | onFlush =>
      rw [hpublishing] at h
      obtain ⟨rfl, hquieter, hfiles⟩ := h
      refine ⟨hlive, rfl, hquieter, fun path hne => ?_⟩
      rw [hfiles, Memory.get?_publish, if_neg hne.symm]

end Medium

/-! ### Completing logs behind a number -/

namespace Journal

variable {journal : Journal} {s next : UInt64} {medium : Medium Memory}

theorem ensures_isPresent (path : String) (medium : Medium Memory) :
    (isPresent path : Action JournalError (Medium Memory) Bool).Ensures medium
      (fun present after => present = medium.storage.files.contains path ∧ Keeps medium after)
      (fun e after => Writer.isWriteFailure e = false ∧ Keeps medium after) := by
  rw [isPresent, Action.ensures_mapError]
  exact (Medium.ensures_isPresent path medium).mono (fun _ _ h => h) fun _ _ h => ⟨rfl, h.toKeeps⟩

/-- What an attempt to complete a log from `s` does to the files. -/
structure Completes (journal : Journal) (s : UInt64) (before after : Medium Memory) : Prop extends
    Quieter before after where
  /-- Only files of logs that start there are changed. -/
  confined : journal.Confined s before.storage.files after.storage.files

theorem completes_of_keeps {before after : Medium Memory} (h : Keeps before after) :
    journal.Completes s before after :=
  ⟨h.toQuieter, .of_eq h.files_eq⟩

theorem Completes.trans {before middle after : Medium Memory}
    (h : journal.Completes s before middle) (h' : journal.Completes s middle after) :
    journal.Completes s before after :=
  ⟨h.toQuieter.trans h'.toQuieter, h.confined.trans h'.confined⟩

theorem ensures_discardEmpty (journal : Journal) (s : UInt64) (medium : Medium Memory) :
    (discardEmpty (journal.log s unknownStop).location).Ensures medium
      (fun _ after => journal.Completes s medium after ∧
        after.storage.files.get? (journal.log s unknownStop).location = none)
      (fun e after => Writer.isWriteFailure e = false ∧ journal.Completes s medium after) := by
  rw [discardEmpty, Action.ensures_bind]
  refine (ensures_isPresent _ medium).mono ?_ fun _ _ h => ⟨h.1, completes_of_keeps h.2⟩
  rintro _ asked ⟨rfl, hkeeps⟩
  rw [Action.ensures_ite, Action.ensures_mapError, Medium.ensures_warn]
  constructor
  · intro _
    refine (Medium.ensures_delete _ asked).mono ?_ ?_
    · rintro _ after ⟨hquieter, hfiles⟩
      refine ⟨(completes_of_keeps hkeeps).trans ⟨hquieter, .erase hfiles⟩, ?_⟩
      rw [hfiles, PathMap.get?_erase, if_pos rfl]
    · rintro e after (⟨hfoiled, -⟩ | ⟨hkeeps', -⟩)
      · exact ⟨rfl, completes_of_keeps (hkeeps.trans hfoiled.toKeeps)⟩
      · exact ⟨rfl, completes_of_keeps (hkeeps.trans hkeeps')⟩
  · intro habsent
    refine ⟨completes_of_keeps (hkeeps.trans (Medium.keeps_warnings _ _)), ?_⟩
    rw [PathMap.contains, Option.not_isSome_iff_eq_none, ← hkeeps.files_eq] at habsent
    exact habsent

theorem ensures_removeDuplicate_confined (journal : Journal) (s next : UInt64)
    (medium : Medium Memory) :
    (removeDuplicate (journal.log s next).location).Ensures medium
      (fun _ after => journal.Completes s medium after)
      (fun e after => Writer.isWriteFailure e = false ∧ journal.Completes s medium after) := by
  have hwarned : journal.Completes s medium
      { medium with warnings := medium.warnings ++ [.duplicateLog] } :=
    completes_of_keeps (Medium.keeps_warnings medium _)
  rw [removeDuplicate, Action.ensures_bind, Medium.ensures_warn, Action.ensures_mapError]
  refine (Medium.ensures_delete _ _).mono ?_ ?_
  · rintro _ after ⟨hquieter, hfiles⟩
    exact hwarned.trans ⟨hquieter, .erase hfiles⟩
  · rintro e after (⟨hfoiled, -⟩ | ⟨hkeeps, -⟩)
    · exact ⟨rfl, hwarned.trans (completes_of_keeps hfoiled.toKeeps)⟩
    · exact ⟨rfl, hwarned.trans (completes_of_keeps hkeeps)⟩

theorem ensures_rename_confined (journal : Journal) (s next : UInt64) (medium : Medium Memory) :
    (do
      (Medium.rename (journal.log s unknownStop).location (journal.log s next).location).mapError
        (.medium (journal.log s unknownStop).location)
      return some (journal.log s next) :
        Action JournalError (Medium Memory) (Option Segment)).Ensures medium
      (fun _ after => journal.Completes s medium after ∧
        after.storage.files.get? (journal.log s unknownStop).location = none)
      (fun e after => Writer.isWriteFailure e = false ∧ journal.Completes s medium after) := by
  rw [Action.ensures_bind, Action.ensures_mapError]
  refine (Medium.ensures_rename_or_not _ _ medium).mono ?_
    fun _ _ hkeeps => ⟨rfl, completes_of_keeps hkeeps⟩
  rintro _ after ⟨hquieter, hne, hfiles⟩
  refine ⟨⟨hquieter, .moved hfiles⟩, ?_⟩
  rw [hfiles, PathMap.get?_moved_source hne]

/-- Completing a log changes files of logs with its start only; if it succeeds the log is gone. -/
theorem ensures_complete_confined (journal : Journal) (s next : UInt64) (medium : Medium Memory) :
    (journal.complete (journal.log s unknownStop) next).Ensures medium
      (fun _ after => journal.Completes s medium after ∧
        after.storage.files.get? (journal.log s unknownStop).location = none)
      (fun e after => Writer.isWriteFailure e = false ∧ journal.Completes s medium after) := by
  rw [complete, Action.ensures_ite]
  refine ⟨fun _ => ⟨rfl, completes_of_keeps (.refl medium)⟩, fun _ => ?_⟩
  rw [Action.ensures_ite]
  constructor
  · intro _
    rw [Action.ensures_bind]
    exact ensures_discardEmpty journal s medium
  intro _
  simp only [Action.ensures_bind]
  refine (ensures_isPresent _ medium).mono ?_ fun _ _ h => ⟨h.1, completes_of_keeps h.2⟩
  rintro hasSource middle ⟨hsource, hkeeps⟩
  refine (ensures_isPresent _ middle).mono ?_
    fun _ _ h => ⟨h.1, completes_of_keeps (hkeeps.trans h.2)⟩
  rintro hasTarget asked ⟨-, hkeeps'⟩
  have hasked : journal.Completes s medium asked := completes_of_keeps (hkeeps.trans hkeeps')
  -- What stands at the new path may have been removed before.
  have hrenamed (cleared : Medium Memory) (hcleared : journal.Completes s medium cleared) :=
    (ensures_rename_confined journal s next cleared).mono
      (fun _ _ h => (⟨hcleared.trans h.1, h.2⟩ : _ ∧ _))
      (fun _ _ h => (⟨h.1, hcleared.trans h.2⟩ : _ ∧ _))
  rw [Action.ensures_ite]
  constructor
  · intro _
    rw [Action.ensures_ite, Action.ensures_bind]
    refine ⟨fun _ => ?_, fun _ => ?_⟩
    · refine (ensures_removeDuplicate_confined journal s next asked).mono ?_
        fun _ _ h => ⟨h.1, hasked.trans h.2⟩
      intro _ cleared hcleared
      exact hrenamed cleared (hasked.trans hcleared)
    · exact hrenamed asked hasked
  · intro habsent
    have hgone : medium.storage.files.get? (journal.log s unknownStop).location = none := by
      rwa [hsource, PathMap.contains, Option.not_isSome_iff_eq_none] at habsent
    rw [← (hkeeps.trans hkeeps').files_eq] at hgone
    rw [Action.ensures_ite]
    refine ⟨fun _ => ⟨hasked, hgone⟩, fun _ => ?_⟩
    rw [Action.ensures_bind, Medium.ensures_warn]
    exact ⟨hasked.trans (completes_of_keeps (Medium.keeps_warnings _ _)), hgone⟩

end Journal

namespace OpenLog

open Journal (Completes)

variable {journal : Journal} {log : OpenLog Stream} {s next : UInt64} {medium : Medium Memory}

/-- The log has no stream, or one to its own file that can be used. -/
def Sound (log : OpenLog Stream) : Prop :=
  ∀ stream ∈ log.stream, stream.phase = .live ∧ stream.path = log.location

/-- Where nothing is armed, committing a log changes files of logs with its start only; if it
succeeds the log is gone. -/
theorem ensures_commit_confined (hsound : log.Sound)
    (hsegment : log.segment = journal.log s unknownStop) (hquiet : medium.armed = 0) :
    (commit journal next).Ensures (log, medium)
      (fun _ t => t.1 = { log with stream := none } ∧ journal.Completes s medium t.2 ∧
        t.2.storage.files.get? log.location = none)
      (fun e t => t.1 = { log with stream := none } ∧ Writer.isWriteFailure e = false ∧
        journal.Completes s medium t.2) := by
  have hwilling : ∀ fault ∈ medium.callFaults, fault.call ≠ .close := by
    rw [(Medium.faults_of_armed hquiet).2]
    nofun
  refine ensures_commit_of_complete hwilling fun closed hquieter hfiles => ?_
  have hother : ∀ path, path ≠ (journal.log s unknownStop).location →
      closed.storage.files.get? path = medium.storage.files.get? path := by
    rw [hfiles, ← hsegment]
    exact fun path hne => get?_closedFiles (fun stream hstream => (hsound stream hstream).2) hne
  have hclosed : journal.Completes s medium closed := ⟨hquieter, .of_ne hother⟩
  rw [location, hsegment]
  refine (Journal.ensures_complete_confined journal s next closed).mono ?_ ?_
  · rintro _ after ⟨hcompletes, hgone⟩
    exact ⟨rfl, hclosed.trans hcompletes, hgone⟩
  · rintro e after ⟨hmild, hcompletes⟩
    exact ⟨rfl, hmild, hclosed.trans hcompletes⟩

/-- Where nothing is armed an entry is appended. -/
theorem ensures_write_of_quiet {stream : Stream} (hstream : log.stream = some stream)
    (hsound : log.Sound) (entry : Entry) (hquiet : medium.armed = 0) :
    (write entry).Ensures (log, medium)
      (fun _ t => t.1.segment = log.segment ∧ t.1.Sound ∧ t.1.stream.isSome = true ∧
        Keeps medium t.2)
      (fun _ _ => False) := by
  obtain ⟨hlive, hpath⟩ := hsound stream hstream
  rw [write, Action.ensures_bind, Action.ensures_get]
  dsimp only
  rw [hstream]
  dsimp only
  rw [Action.ensures_bind, ensures_onStream]
  refine (Medium.ensures_write_of_quiet _ hlive hquiet).mono ?_ (fun _ _ h => h)
  rintro _ ⟨stream', after⟩ ⟨hlive', hpath', hkeeps⟩
  rw [Action.ensures_modify]
  refine ⟨rfl, ?_, rfl, hkeeps⟩
  rintro _ ⟨⟩
  exact ⟨hlive', hpath'.trans hpath⟩

/-- Where nothing is armed a log is flushed, and no other file is changed. -/
theorem ensures_flush_of_quiet {stream : Stream} (hstream : log.stream = some stream)
    (hsound : log.Sound) (hquiet : medium.armed = 0) :
    (flush : Action JournalError (OpenLog Stream × Medium Memory) Unit).Ensures (log, medium)
      (fun _ t => t.1.segment = log.segment ∧ t.1.Sound ∧ t.1.stream.isSome = true ∧
        Quieter medium t.2 ∧ ∀ path, path ≠ log.location →
          t.2.storage.files.get? path = medium.storage.files.get? path)
      (fun _ _ => False) := by
  obtain ⟨hlive, hpath⟩ := hsound stream hstream
  rw [flush, Action.ensures_bind, Action.ensures_get]
  dsimp only
  rw [hstream]
  dsimp only
  rw [ensures_onStream]
  refine (Medium.ensures_flush_of_quiet hlive hquiet).mono ?_ (fun _ _ h => h)
  rintro _ ⟨stream', after⟩ ⟨hlive', hpath', hquieter, hfiles⟩
  rw [hpath] at hfiles
  refine ⟨rfl, ?_, rfl, hquieter, hfiles⟩
  rintro _ ⟨⟩
  exact ⟨hlive', hpath'.trans hpath⟩

end OpenLog

/-! ### Writers behind a number -/

namespace Writer

open Journal (Grown)

variable {journal : Journal} {n s : UInt64} {base : PathMap Bytes} {writer : Writer Stream}
  {log : OpenLog Stream} {medium : Medium Memory}

/-- The open log starts at a number or behind it, and its stream, if it has one, can be used. -/
structure Owns (journal : Journal) (n : UInt64) (log : OpenLog Stream) : Prop where
  /-- It starts there. -/
  segment : ∃ s, n ≤ s ∧ log.segment = journal.log s unknownStop
  /-- Its stream can be used. -/
  sound : log.Sound

/-- A writer has gone on at a number since the files were `base`: every log it has written starts
there or behind it. -/
structure Growing (journal : Journal) (n : UInt64) (base : PathMap Bytes) (writer : Writer Stream)
    (medium : Medium Memory) : Prop where
  /-- It writes to the journal. -/
  journal_eq : writer.journal = journal
  /-- It has not gone back. -/
  le_next : n ≤ writer.next
  /-- It needs no reset. -/
  steady : writer.needsReset = false
  /-- Its log is its own. -/
  owns : ∀ log ∈ writer.log, Owns journal n log
  /-- Its log does not start behind the next entry. -/
  behind : ∀ log ∈ writer.log, log.segment.start ≤ writer.next
  /-- A log without a stream is not written to. -/
  rotating : ∀ log ∈ writer.log, log.stream = none → writer.rotateNext = true
  /-- Nothing is armed. -/
  quiet : medium.armed = 0
  /-- No other log is incomplete, and what starts before the number is as it was. -/
  grown : journal.Grown n base medium.storage.files (writer.log.map OpenLog.segment)

/-- A new log is opened where none is incomplete. -/
theorem ensures_openLog_of_grown (h : journal.Grown n base medium.storage.files none)
    (hjournal : writer.journal = journal) (hs : n ≤ s) (hquiet : medium.armed = 0) :
    (openLog s).Ensures (writer, medium)
      (fun log t => t.1 = { writer with log := some log } ∧ Owns journal n log ∧
        log.segment.start = s ∧ log.stream.isSome = true ∧ t.2.armed = 0 ∧
        journal.Grown n base t.2.storage.files (some log.segment))
      (fun _ _ => False) := by
  rw [openLog, Action.ensures_bind, Action.ensures_get]
  dsimp only
  rw [Action.ensures_bind, ensures_update, Action.ensures_bind, Action.ensures_onSecond,
    OpenLog.create, Action.ensures_bind, Action.ensures_mapError]
  refine (Medium.ensures_create _ medium).mono ?_ fun _ _ hfoiled => hfoiled.toFired.elim hquiet
  rintro _ after ⟨rfl, hquieter, hfiles⟩
  rw [Action.ensures_pure, Action.ensures_bind, ensures_update]
  have hother : ∀ path, path ≠ (journal.log s unknownStop).location →
      after.storage.files.get? path = medium.storage.files.get? path := by
    intro path hne
    rw [hfiles, hjournal]
    cases medium.storage.publishing with
    | onFlush => rw [Medium.created, PathMap.get?_insert, if_neg hne.symm]
    | onClose => rfl
  rw [hjournal]
  refine ⟨rfl, ⟨⟨s, hs, rfl⟩, ?_⟩, rfl, rfl, hquieter.quiet hquiet,
    h.confined hs (fun _ hnone => (by cases hnone)) (.of_ne hother)⟩
  rintro _ ⟨⟩
  exact ⟨rfl, rfl⟩

/-- A new log is opened for the next entry. -/
theorem ensures_openNext_of_grown (h : journal.Grown n base medium.storage.files none)
    (hjournal : writer.journal = journal) (hnext : n ≤ writer.next)
    (hsteady : writer.needsReset = false) (given : Option (OpenLog Stream))
    (hquiet : medium.armed = 0) :
    (openNext writer.next).Ensures ({ writer with log := given }, medium)
      (fun log t => Growing journal n base t.1 t.2 ∧ writer.Alike t.1 ∧ t.1.log = some log ∧
        log.stream.isSome = true)
      (fun _ _ => False) := by
  rw [openNext, Action.ensures_bind]
  refine (ensures_openLog_of_grown h hjournal hnext hquiet).mono ?_ (fun _ _ h => h)
  rintro log ⟨_, after⟩ ⟨rfl, howns, hbegin, hstream, hquiet', hgrown⟩
  rw [Action.ensures_bind, ensures_update]
  refine ⟨⟨hjournal, hnext, hsteady, ?_, ?_, ?_, hquiet', hgrown⟩, ⟨rfl, rfl, rfl, rfl, rfl⟩, rfl,
    hstream⟩
  · rintro _ ⟨⟩
    exact howns
  · rintro _ ⟨⟩
    exact UInt64.le_of_eq hbegin
  · rintro _ ⟨⟩ hnone
    rw [hnone] at hstream
    cases hstream

/-- A writer that needs no reset is settled. -/
theorem endsIn_settle_of_steady {t : Writer Stream × Medium Memory}
    (h : t.1.needsReset = false) (Q : Unit → Writer Stream × Medium Memory → Prop)
    (E : JournalError → Writer Stream × Medium Memory → Prop)
    (K : Writer Stream × Medium Memory → Prop) : settle.EndsIn t Q E K ↔ Q () t := by
  unfold Action.EndsIn
  rw [settle_of_steady h]

theorem ensures_settle_of_steady {t : Writer Stream × Medium Memory}
    (h : t.1.needsReset = false) (Q : Unit → Writer Stream × Medium Memory → Prop)
    (E : JournalError → Writer Stream × Medium Memory → Prop) :
    settle.Ensures t Q E ↔ Q () t :=
  endsIn_settle_of_steady h Q E fun _ => False

/-- Of the files it is known that nothing before the number was changed. -/
def Spares (journal : Journal) (n : UInt64) (base : PathMap Bytes) (medium : Medium Memory) :
    Prop :=
  medium.armed = 0 ∧ ∃ own, journal.Grown n base medium.storage.files own

/-- The log is completed and another one opened, if committing it leaves none incomplete. -/
theorem ensures_rotate_of_grown {P : Writer Stream × Medium Memory → Prop}
    (hjournal : writer.journal = journal) (hnext : n ≤ writer.next)
    (hsteady : writer.needsReset = false) (hlog : writer.log = some log)
    (hcommit : (OpenLog.commit journal writer.next).Ensures (log, medium)
      (fun _ t => t.2.armed = 0 ∧ journal.Grown n base t.2.storage.files none)
      (fun e t => isWriteFailure e = false ∧ P ({ writer with log := some t.1 }, t.2))) :
    rotate.Ensures (writer, medium)
      (fun log t => Growing journal n base t.1 t.2 ∧ writer.Alike t.1 ∧ t.1.log = some log ∧
        log.stream.isSome = true)
      (fun _ t => P t) := by
  rw [rotate, Action.ensures_bind, Action.ensures_get]
  dsimp only
  rw [hlog, hjournal]
  dsimp only
  rw [Action.ensures_bind, Action.ensures_discard, ensures_resetAfter, ensures_onLog]
  refine hcommit.mono ?_ ?_
  · rintro _ ⟨given, after⟩ ⟨hquiet, hgrown⟩
    exact (ensures_openNext_of_grown hgrown hjournal hnext hsteady (some given) hquiet).mono
      (fun _ _ h => h) (fun _ _ h => h.elim)
  · rintro e ⟨given, after⟩ ⟨hmild, hP⟩
    rw [hmild]
    exact hP

namespace Growing

/-- Its own log is committed, or is still the writer's. -/
theorem ensures_commit (h : Growing journal n base writer medium) (hlog : writer.log = some log)
    (next : UInt64) :
    (OpenLog.commit journal next).Ensures (log, medium)
      (fun _ t => t.2.armed = 0 ∧ journal.Grown n base t.2.storage.files none)
      (fun e t => isWriteFailure e = false ∧ t.1 = { log with stream := none } ∧
        t.2.armed = 0 ∧ journal.Grown n base t.2.storage.files (some log.segment)) := by
  obtain ⟨⟨s, hs, hsegment⟩, hsound⟩ := h.owns log hlog
  have hgrown := h.grown
  rw [hlog, Option.map_some] at hgrown
  have hafter {after : Medium Memory} (hcompletes : journal.Completes s medium after) :
      journal.Grown n base after.storage.files (some log.segment) := by
    rw [hsegment]
    refine hgrown.confined hs ?_ hcompletes.confined
    rintro _ ⟨⟩
    exact hsegment
  refine (OpenLog.ensures_commit_confined hsound hsegment h.quiet).mono ?_ ?_
  · rintro _ ⟨given, after⟩ ⟨rfl, hcompletes, hgone⟩
    exact ⟨hcompletes.quiet h.quiet, (hafter hcompletes).gone hgone⟩
  · rintro e ⟨given, after⟩ ⟨rfl, hmild, hcompletes⟩
    exact ⟨hmild, rfl, hcompletes.quiet h.quiet, hafter hcompletes⟩

/-- The writer with its log in another state, on a medium where only the log's files changed. -/
theorem of_log {given : OpenLog Stream} {after : Medium Memory}
    (h : Growing journal n base writer medium) (howns : Owns journal n given)
    (hbehind : given.segment.start ≤ writer.next)
    (hrotating : given.stream = none → writer.rotateNext = true) (hquiet : after.armed = 0)
    (hgrown : journal.Grown n base after.storage.files (some given.segment)) :
    Growing journal n base { writer with log := some given } after := by
  refine ⟨h.journal_eq, h.le_next, h.steady, ?_, ?_, ?_, hquiet, hgrown⟩
  · rintro _ ⟨⟩
    exact howns
  · rintro _ ⟨⟩
    exact hbehind
  · rintro _ ⟨⟩
    exact hrotating

theorem ensures_rotate (h : Growing journal n base writer medium)
    (hends : writer.log ≠ none → writer.rotateNext = true) :
    rotate.Ensures (writer, medium)
      (fun log t => Growing journal n base t.1 t.2 ∧ writer.Alike t.1 ∧ t.1.log = some log ∧
        log.stream.isSome = true)
      (fun _ t => Growing journal n base t.1 t.2 ∧ writer.Alike t.1) := by
  cases hlog : writer.log with
  | none =>
      rw [rotate, Action.ensures_bind, Action.ensures_get]
      dsimp only
      have hgrown := h.grown
      rw [hlog] at hgrown ⊢
      have hopened := ensures_openNext_of_grown hgrown h.journal_eq h.le_next h.steady none h.quiet
      rw [← hlog] at hopened
      exact hopened.mono (fun _ _ h => h) (fun _ _ h => h.elim)
  | some log =>
      have hrotates := hends (by rw [hlog]; exact Option.some_ne_none log)
      refine ensures_rotate_of_grown h.journal_eq h.le_next h.steady hlog
        ((h.ensures_commit hlog writer.next).mono (fun _ _ h => h) ?_)
      rintro e ⟨_, after⟩ ⟨hmild, rfl, hquiet, hgrown⟩
      refine ⟨hmild, h.of_log ⟨(h.owns log hlog).segment, ?_⟩ (h.behind log hlog)
        (fun _ => hrotates) hquiet hgrown, rfl, rfl, rfl, rfl, rfl⟩
      rintro _ ⟨⟩

theorem ensures_logForNext (h : Growing journal n base writer medium) :
    logForNext.Ensures (writer, medium)
      (fun log t => Growing journal n base t.1 t.2 ∧ writer.Alike t.1 ∧ t.1.log = some log ∧
        log.stream.isSome = true)
      (fun _ t => Growing journal n base t.1 t.2 ∧ writer.Alike t.1) := by
  rw [logForNext, Action.ensures_bind, Action.ensures_get]
  dsimp only
  cases hlog : writer.log with
  | none => exact h.ensures_rotate fun hsome => absurd hlog hsome
  | some log =>
      dsimp only
      rw [Action.ensures_ite]
      refine ⟨fun hrotates => h.ensures_rotate fun _ => hrotates,
        fun hstays => ⟨h, .refl writer, hlog, ?_⟩⟩
      rw [Option.isSome_iff_ne_none]
      exact fun hnone => hstays (h.rotating log hlog hnone)

end Growing

theorem Growing.spares (h : Growing journal n base writer medium) :
    Spares journal n base medium :=
  ⟨h.quiet, _, h.grown⟩

/-- What appending does once the log is at hand: the entry is written to it, and the next number is
the one behind `next`. -/
def appendTo (log : OpenLog Stream) (entry : Entry) (next : UInt64) :
    Action JournalError (Writer Stream × Medium Memory) UInt64 := do
  resetAfter (fun _ => true) (onLog log (OpenLog.write entry))
  update fun writer => { writer with unflushed := writer.unflushed ++ [entry] }
  let next ← Action.successor next
  update fun writer => { writer with next }
  return entry.sequence

/-- An entry is appended to a log behind the number, unless the numbers end. -/
theorem Growing.endsIn_appendTo (h : Growing journal n base writer medium)
    (hlog : writer.log = some log) (hstream : log.stream.isSome = true) (entry : Entry) :
    (appendTo log entry writer.next).EndsIn (writer, medium)
      (fun _ t => Growing journal n base t.1 t.2 ∧ writer.Alike { t.1 with next := writer.next })
      (fun _ _ => False) (fun t => writer.next + 1 = 0 ∧ Spares journal n base t.2) := by
  obtain ⟨stream, hstream⟩ := Option.isSome_iff_exists.1 hstream
  have howns := h.owns log hlog
  rw [appendTo, Action.endsIn_bind, endsIn_resetAfter, endsIn_onLog]
  refine (OpenLog.ensures_write_of_quiet hstream howns.sound _ h.quiet).endsIn.mono ?_
    (fun _ _ h => h.elim) (fun _ h => h)
  rintro _ ⟨given, after⟩ ⟨hsegment, hsound, hstream', hkeeps⟩
  have hgrown : journal.Grown n base after.storage.files (some given.segment) := by
    have hgrown := h.grown
    rw [hlog, Option.map_some, ← hsegment, ← hkeeps.files_eq] at hgrown
    exact hgrown
  have happended := h.of_log (⟨hsegment ▸ howns.segment, hsound⟩ : Owns journal n given)
    (hsegment ▸ h.behind log hlog)
    (fun hnone => (by rw [hnone] at hstream'; cases hstream')) (hkeeps.quiet h.quiet) hgrown
  rw [Action.endsIn_bind, endsIn_update, Action.endsIn_bind, Action.endsIn_successor]
  split
  · next hfull => exact ⟨hfull, happended.quiet, _, hgrown⟩
  · next hroom =>
    have hlt := UInt64.le_of_lt (Action.lt_add_one hroom)
    rw [Action.endsIn_bind, endsIn_update]
    refine ⟨⟨happended.journal_eq, UInt64.le_trans h.le_next hlt, happended.steady,
      happended.owns, ?_, happended.rotating, happended.quiet, hgrown⟩, rfl, rfl, rfl, rfl, rfl⟩
    exact fun log hsome => UInt64.le_trans (happended.behind log hsome) hlt

/-- A log behind the number is flushed. -/
theorem Growing.ensures_flushOpen (h : Growing journal n base writer medium)
    (hlog : writer.log = some log) {stream : Stream} (hstream : log.stream = some stream) :
    (flushOpen writer log).Ensures (writer, medium)
      (fun _ t => Growing journal n base t.1 t.2 ∧ writer.Alike t.1)
      (fun _ _ => False) := by
  obtain ⟨⟨s, hs, hsegment⟩, hsound⟩ := h.owns log hlog
  rw [flushOpen, Action.ensures_bind, ensures_resetAfter, ensures_onLog]
  refine (OpenLog.ensures_flush_of_quiet hstream hsound h.quiet).mono ?_ (fun _ _ h => h.elim)
  rintro _ ⟨given, after⟩ ⟨hsame, hsound', hstream', hquieter, hfiles⟩
  rw [Action.ensures_bind, Action.ensures_get]
  dsimp only
  rw [ensures_update]
  have hgrown : journal.Grown n base after.storage.files (some given.segment) := by
    have hgrown := h.grown
    rw [hlog, Option.map_some] at hgrown
    rw [hsame, hsegment]
    rw [OpenLog.location, hsegment] at hfiles
    refine hgrown.confined hs ?_ (.of_ne hfiles)
    rintro _ ⟨⟩
    exact hsegment
  have hflushed := h.of_log (⟨⟨s, hs, hsame.trans hsegment⟩, hsound'⟩ : Owns journal n given)
    (hsame ▸ h.behind log hlog)
    (fun hnone => (by rw [hnone] at hstream'; cases hstream')) (hquieter.quiet h.quiet) hgrown
  refine ⟨⟨hflushed.journal_eq, hflushed.le_next, hflushed.steady, hflushed.owns, hflushed.behind,
    ?_, hflushed.quiet, hgrown⟩, rfl, rfl, rfl, rfl, rfl⟩
  intro log hsome hnone
  rw [hflushed.rotating log hsome hnone, Bool.true_or]

/-- A writer that is not closed can be flushed. -/
theorem Growing.ensures_push (h : Growing journal n base writer medium) :
    push.Ensures (writer, medium)
      (fun _ t => Growing journal n base t.1 t.2 ∧ writer.Alike t.1)
      (fun _ t => writer.closed = true ∧ t = (writer, medium)) := by
  rw [push, Action.ensures_bind, Action.ensures_get]
  dsimp only
  rw [Action.ensures_ite]
  refine ⟨fun hclosed => ⟨hclosed, rfl⟩, fun _ => ?_⟩
  rw [Action.ensures_bind, ensures_settle_of_steady h.steady, Action.ensures_bind,
    Action.ensures_get]
  dsimp only
  cases hlog : writer.log with
  | none => exact ⟨h, .refl writer⟩
  | some log =>
      dsimp only
      rw [Action.ensures_ite]
      refine ⟨fun _ => ⟨h, .refl writer⟩, fun hbusy => ?_⟩
      rw [Bool.or_eq_true, not_or, ← Option.not_isSome, Bool.not_eq_true', Bool.not_eq_false]
        at hbusy
      obtain ⟨stream, hstream⟩ := Option.isSome_iff_exists.1 hbusy.1
      exact (h.ensures_flushOpen hlog hstream).mono (fun _ _ h => h) (fun _ _ h => h.elim)

/-- A writer that needs no reset only has its log to complete. -/
theorem ensures_finish_of_steady {Q : Unit → Writer Stream × Medium Memory → Prop}
    {E : JournalError → Writer Stream × Medium Memory → Prop} (hopen : writer.closed = false)
    (hsteady : writer.needsReset = false) :
    finish.Ensures (writer, medium) Q E ↔ (finishSettled []).Ensures (writer, medium) Q E := by
  rw [finish_eq, Action.ensures_bind, Action.ensures_get]
  dsimp only
  rw [hopen, if_neg Bool.false_ne_true, Action.ensures_bind, ensures_errorsOf,
    ensures_settle_of_steady hsteady]

/-- Closing it leaves the medium as the commit of its log does. -/
theorem ensures_finish_of_commit {R : Medium Memory → Prop} (hopen : writer.closed = false)
    (hsteady : writer.needsReset = false) (hnone : writer.log = none → R medium)
    (hcommit : ∀ log ∈ writer.log, (OpenLog.commit writer.journal writer.next).Ensures
      (log, medium) (fun _ t => R t.2) (fun _ t => R t.2)) :
    finish.Ensures (writer, medium) (fun _ t => t.1.closed = true ∧ R t.2)
      (fun _ t => t.1.closed = true ∧ R t.2) := by
  have hfinished (errors : List JournalError) (log : Option (OpenLog Stream))
      (after : Medium Memory) (hafter : R after) :
      (writer.finishAfter errors).Ensures ({ writer with log }, after)
        (fun _ t => t.1.closed = true ∧ R t.2) (fun _ t => t.1.closed = true ∧ R t.2) := by
    refine (ensures_finishAfter_of_any writer errors _ after).mono ?_ ?_ <;>
    · rintro _ _ rfl
      exact ⟨rfl, hafter⟩
  rw [ensures_finish_of_steady hopen hsteady, finishSettled, Action.ensures_bind,
    Action.ensures_get]
  dsimp only
  cases hlog : writer.log with
  | none =>
      have hclosed := hfinished ([] ++ []) none medium (hnone hlog)
      rw [← hlog] at hclosed
      exact hclosed
  | some log =>
      dsimp only
      rw [if_pos List.isEmpty_nil, Action.ensures_bind, ensures_errorsOf, ensures_onLog]
      exact (hcommit log hlog).mono (fun _ t hafter => hfinished _ (some t.1) t.2 hafter)
        (fun _ t hafter => hfinished _ (some t.1) t.2 hafter)

theorem Growing.ensures_finish (h : Growing journal n base writer medium)
    (hopen : writer.closed = false) :
    finish.Ensures (writer, medium) (fun _ t => t.1.closed = true ∧ Spares journal n base t.2)
      (fun _ t => t.1.closed = true ∧ Spares journal n base t.2) := by
  refine ensures_finish_of_commit hopen h.steady (fun _ => h.spares) fun log hlog => ?_
  rw [h.journal_eq]
  exact (h.ensures_commit hlog writer.next).mono (fun _ _ h => ⟨h.1, _, h.2⟩)
    fun _ _ h => ⟨h.2.2.1, _, h.2.2.2⟩

end Writer

end SegmentedJournal
