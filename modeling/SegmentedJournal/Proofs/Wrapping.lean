import SegmentedJournal.Proofs.Gaps
import SegmentedJournal.Proofs.Moving
import SegmentedJournal.Proofs.Parsing
/-!
# The number behind the last one

A recovery reckons with numbers that it finds on the medium.  The number behind the last one that
a name promises is a stop, and always a word; but an entry may carry any number, and there is none
behind the greatest word.  A journal is topped (`Journal.Topped`) if an entry with that number can
be read from the log being written.

A probe of it succeeds.  What comes next is cut off just where the journal is topped: the number
behind the frontier (`Journal.crashes_next_iff`), the sealing at the frontier
(`Journal.crashes_sealAt_iff`), and so a reset (`Writer.crashes_reset_of_topped`,
`Writer.ensures_reset_of_not_topped`), although such a frontier lies ahead of every writer and
ought to be refused.

A sealing does not ask whether there can be a log of the name it gives either.  The name is one of a
log just if the log's start is no greater than its stop, and that no greater than `unknownStop`
(`Journal.sealed_named`).
-/

namespace SegmentedJournal

open Memory (Stream)
open Medium (Keeps Foiled)

namespace Action

variable {ε σ α : Type} {x : Action ε σ α} {s : σ} {Q : α → σ → Prop} {E : ε → σ → Prop}

/-- The action is cut off. -/
def Crashes (x : Action ε σ α) (s : σ) : Prop :=
  ∃ c s', x s = .error (.crash c) s'

instance (x : Action ε σ α) (s : σ) : Decidable (x.Crashes s) :=
  match h : x s with
  | .ok _ _ => isFalse fun ⟨_, _, hcrash⟩ => by cases h.symm.trans hcrash
  | .error (.error _) _ => isFalse fun ⟨_, _, hcrash⟩ => by cases h.symm.trans hcrash
  | .error (.crash c) s' => isTrue ⟨c, s', h⟩

theorem Ensures.not_crashes (h : x.Ensures s Q E) : ¬ x.Crashes s := by
  rintro ⟨c, s', hcrash⟩
  exact h.ends.of_crash hcrash

end Action

/-! ### Frontiers that have no next number -/

namespace Frontier

variable {frontier : Frontier} {a b : Option UInt64}

/-- The number behind the last one that a name promises is the name's stop, which is a word. -/
theorem add_one_ne_zero_of_lastNamed? {segment : Segment} {last : UInt64}
    (h : lastNamed? segment = some last) : last + 1 ≠ 0 := by
  unfold lastNamed? at h
  split at h
  · cases h
  · next hne =>
    cases h
    rwa [UInt64.sub_add_cancel]

theorem greater?_add_one_ne_zero {last : UInt64} (ha : ∀ n ∈ a, n + 1 ≠ 0)
    (hb : ∀ n ∈ b, n + 1 ≠ 0) (h : greater? a b = some last) : last + 1 ≠ 0 := by
  cases a with
  | none => exact hb _ h
  | some n =>
    cases b with
    | none =>
      cases h
      exact ha _ rfl
    | some m =>
      cases h
      rcases Std.MaxEqOr.max_eq_or n m with heq | heq
      · rw [heq]
        exact ha _ rfl
      · rw [heq]
        exact hb _ rfl

/-- A frontier has no next number just if the incomplete log's last entry has none. -/
theorem next?_ofSnapshot_eq_none_iff {snapshot : Snapshot} {last : Option UInt64} :
    (ofSnapshot snapshot last).next? = none ↔ ∃ n, last = some n ∧ n + 1 = 0 := by
  unfold next? ofSnapshot
  dsimp only
  cases last with
  | some n => simp
  | none =>
    simp only [Option.none_or, reduceCtorEq, false_and, exists_false, iff_false]
    cases hnamed : greater? (snapshot.lastLog?.bind lastNamed?)
      (snapshot.latestCheckpoint?.bind lastNamed?) with
    | none => exact nofun
    | some n =>
      dsimp only
      have hbound (segment : Option Segment) : ∀ n ∈ segment.bind lastNamed?, n + 1 ≠ 0 := by
        intro n hn
        obtain ⟨named, -, hn⟩ := Option.bind_eq_some_iff.1 hn
        exact add_one_ne_zero_of_lastNamed? hn
      rw [if_neg (greater?_add_one_ne_zero (hbound _) (hbound _) hnamed)]
      exact nofun

variable {ε σ : Type} {n : UInt64}

theorem next_of_next?_eq_none (h : frontier.next? = none) (s : σ) :
    (frontier.next : Action ε σ UInt64) s = .error (.crash .overflow) s := by
  unfold next? at h
  unfold next
  cases hlast : frontier.lastPersisted with
  | none => simp [hlast] at h
  | some last =>
    have hwraps : last + 1 = 0 := by simpa [hlast] using h
    dsimp only
    rw [Action.successor, if_pos hwraps, Action.crash]

theorem next_of_next?_eq_some (h : frontier.next? = some n) (s : σ) :
    (frontier.next : Action ε σ UInt64) s = .ok n s := by
  unfold next? at h
  unfold next
  cases hlast : frontier.lastPersisted with
  | none =>
    rw [hlast] at h
    cases h
    rfl
  | some last =>
    rw [hlast] at h
    dsimp only at h ⊢
    split at h
    · cases h
    · next hsucc =>
      cases h
      rw [Action.successor, if_neg hsucc, Action.pure_apply]

end Frontier

/-! ### Journals whose last number is the greatest word -/

namespace Journal

variable {journal : Journal} {files : PathMap Bytes} {frontier : Frontier} {snapshot : Snapshot}
  {log : Segment} {contents : Bytes} {last : UInt64} {medium : Medium Memory}

/-- An entry with the greatest number of all can be read from the log being written. -/
def Topped (journal : Journal) (files : PathMap Bytes) : Prop :=
  ∃ snapshot log contents, journal.snapshotOf files = .ok snapshot ∧
    snapshot.current = some log ∧ files.get? log.location = some contents ∧
    ∃ entry ∈ SegmentReader.entries { segment := log, rest := contents },
      entry.sequence = 0xffffffffffffffff

/-- The files of a topped journal have a frontier. -/
theorem Topped.exists_frontierOf (h : journal.Topped files) :
    ∃ frontier, journal.frontierOf files = .ok frontier := by
  obtain ⟨snapshot, log, contents, hsnapshot, hcurrent, hget, -⟩ := h
  exact ⟨_, frontierOf_of_some hsnapshot hcurrent hget⟩

/-- What a frontier of the files is made of. -/
theorem exists_of_frontierOf (h : journal.frontierOf files = .ok frontier) :
    ∃ snapshot, journal.snapshotOf files = .ok snapshot ∧
      (snapshot.current = none ∧ frontier = .ofSnapshot snapshot none ∨
        ∃ log contents, snapshot.current = some log ∧ files.get? log.location = some contents ∧
          frontier = .ofSnapshot snapshot
            (SegmentReader.greatest? { segment := log, rest := contents })) := by
  cases hsnapshot : journal.snapshotOf files with
  | error e =>
    rw [frontierOf, hsnapshot] at h
    cases h
  | ok snapshot =>
    refine ⟨snapshot, rfl, ?_⟩
    cases hcurrent : snapshot.current with
    | none => exact .inl ⟨rfl, Except.ok.inj (h.symm.trans (frontierOf_of_none hsnapshot hcurrent))⟩
    | some log =>
      obtain ⟨checkpoints, complete, current⟩ := snapshot
      cases hcurrent
      obtain ⟨hhas, -⟩ := (lists_of_snapshotOf_eq hsnapshot).has_current
      obtain ⟨contents, hget⟩ := Option.isSome_iff_exists.1 hhas.present
      exact .inr ⟨log, contents, rfl, hget,
        Except.ok.inj (h.symm.trans (frontierOf_of_some hsnapshot rfl hget))⟩

theorem add_one_eq_zero_iff {n : UInt64} : n + 1 = 0 ↔ n = 0xffffffffffffffff := by
  constructor
  · intro h
    rw [← UInt64.add_sub_cancel n 1, h]
    rfl
  · rintro rfl
    rfl

/-- The last entry of a log has no number behind it just if the journal is topped. -/
theorem topped_iff_of_frontierOf (h : journal.frontierOf files = .ok frontier) :
    (∃ last, frontier.lastInIncomplete = some last ∧ last + 1 = 0) ↔ journal.Topped files := by
  obtain ⟨snapshot, hsnapshot, ⟨hcurrent, rfl⟩ | ⟨log, contents, hcurrent, hget, rfl⟩⟩ :=
    exists_of_frontierOf h
  · refine iff_of_false (fun ⟨_, hnone, _⟩ => (by cases hnone)) ?_
    rintro ⟨other, log, -, hother, hlog, -⟩
    cases hsnapshot.symm.trans hother
    rw [hcurrent] at hlog
    cases hlog
  · constructor
    · rintro ⟨last, hlast, hwraps⟩
      obtain ⟨⟨entry, hentry, rfl⟩, -⟩ := SegmentReader.greatest?_eq_some_iff.1 hlast
      exact ⟨snapshot, log, contents, hsnapshot, hcurrent, hget, entry, hentry,
        add_one_eq_zero_iff.1 hwraps⟩
    · rintro ⟨other, log', contents', hother, hlog, hget', entry, hentry, hmax⟩
      cases hsnapshot.symm.trans hother
      cases hcurrent.symm.trans hlog
      cases hget.symm.trans hget'
      refine ⟨_, SegmentReader.greatest?_eq_some_iff.2 ⟨⟨entry, hentry, hmax⟩, ?_⟩, rfl⟩
      intro other _
      rw [UInt64.le_iff_toNat_le]
      exact Nat.le_of_lt_succ other.sequence.toNat_lt

/-- There is no number behind the frontier just if the journal is topped. -/
theorem next?_eq_none_iff (h : journal.frontierOf files = .ok frontier) :
    frontier.next? = none ↔ journal.Topped files := by
  rw [← topped_iff_of_frontierOf h]
  obtain ⟨snapshot, -, ⟨-, rfl⟩ | ⟨log, contents, -, -, rfl⟩⟩ := exists_of_frontierOf h
  · exact Frontier.next?_ofSnapshot_eq_none_iff
  · exact Frontier.next?_ofSnapshot_eq_none_iff

/-- The number behind the frontier is asked for in vain just if the journal is topped. -/
theorem crashes_next_iff {ε σ : Type} (h : journal.frontierOf files = .ok frontier) (s : σ) :
    (frontier.next : Action ε σ UInt64).Crashes s ↔ journal.Topped files := by
  rw [← next?_eq_none_iff h]
  cases hnext : frontier.next? with
  | none => exact iff_of_true ⟨_, s, Frontier.next_of_next?_eq_none hnext s⟩ rfl
  | some n =>
    refine iff_of_false ?_ nofun
    rintro ⟨c, s', hcrash⟩
    rw [Frontier.next_of_next?_eq_some hnext] at hcrash
    cases hcrash

/-! ### Sealing -/

/-- The incomplete log is sealed under the name that a frontier gives it, and its file is there. -/
def SealedAs (journal : Journal) (frontier : Frontier) (sealed : Segment) (files : PathMap Bytes) :
    Prop :=
  ∃ log last, frontier.incomplete = some log ∧ frontier.lastInIncomplete = some last ∧
    last + 1 ≠ 0 ∧ sealed = journal.log log.start (last + 1) ∧
    files.contains sealed.location = true

/-- A log that was renamed has a file under its new name. -/
theorem ensures_rename_sealedAs (journal : Journal)
    (hincomplete : frontier.incomplete = some log)
    (hlast : frontier.lastInIncomplete = some last) (hsucc : last + 1 ≠ 0) (source : String)
    (medium : Medium Memory) :
    (do
      (Medium.rename source (journal.log log.start (last + 1)).location).mapError (.medium source)
      return some (journal.log log.start (last + 1)) :
        Action JournalError (Medium Memory) (Option Segment)).Ensures medium
      (fun answer after =>
        ∀ sealed ∈ answer, journal.SealedAs frontier sealed after.storage.files)
      (fun _ _ => True) := by
  simp only [Action.ensures_bind, Action.ensures_mapError, Medium.rename, Medium.ensures_counted,
    Medium.ensures_onStorage, Storage.rename, Memory.rename]
  cases Fault.take? .rename medium.storage.faults with
  | some faults => trivial
  | none =>
    cases medium.storage.files.contains (journal.log log.start (last + 1)).location with
    | true => trivial
    | false =>
      cases medium.storage.files.get? source with
      | none => trivial
      | some contents =>
        rintro _ ⟨⟩
        exact ⟨log, last, hincomplete, hlast, hsucc, rfl, by simp [PathMap.contains]⟩

/-- A sealing that gives a log a name leaves its file there, and it is cut off only if the number
behind the log's last entry is too great. -/
theorem ends_sealAt_named (journal : Journal) (frontier : Frontier) (medium : Medium Memory) :
    (journal.sealAt frontier).Ends medium
      (fun answer after =>
        ∀ sealed ∈ answer, journal.SealedAs frontier sealed after.storage.files)
      (fun _ _ => True)
      (∃ last, frontier.lastInIncomplete = some last ∧ last + 1 = 0) := by
  unfold sealAt
  split
  · exact nofun
  · rw [Action.ends_bind]
    exact (ensures_removed _ medium).ends.mono (fun _ _ _ => nofun) (fun _ _ _ => trivial)
  · next log last hincomplete hlast =>
    rw [Action.ends_bind, Action.ends_successor]
    split
    · next hwraps => exact ⟨last, hlast, hwraps⟩
    · next hsucc =>
      have hrenamed (given : Medium Memory) :=
        ensures_rename_sealedAs journal hincomplete hlast hsucc log.location given
      rw [Action.ends_bind]
      refine (ensures_asked _ medium).ends.mono (fun _ asked _ => ?_) (fun _ _ _ => trivial)
      dsimp only
      rw [Action.ends_ite]
      refine ⟨fun _ => ?_, fun _ => (hrenamed asked).ends⟩
      rw [Action.ends_bind]
      exact (ensures_removeDuplicate _ asked).ends.mono (fun _ removed _ => (hrenamed removed).ends)
        (fun _ _ _ => trivial)

/-- A sealing at the frontier of some files is cut off, on any medium, just if the journal is
topped. -/
theorem crashes_sealAt_iff (h : journal.frontierOf files = .ok frontier)
    (medium : Medium Memory) :
    (journal.sealAt frontier).Crashes medium ↔ journal.Topped files := by
  rw [← topped_iff_of_frontierOf h]
  constructor
  · rintro ⟨c, after, hcrash⟩
    exact (ends_sealAt_named journal frontier medium).of_crash hcrash
  · rintro ⟨last, hlast, hwraps⟩
    obtain ⟨snapshot, -, ⟨-, rfl⟩ | ⟨log, contents, hcurrent, -, rfl⟩⟩ := exists_of_frontierOf h
    · cases hlast
    · have hincomplete : (Frontier.ofSnapshot snapshot (SegmentReader.greatest?
          { segment := log, rest := contents })).incomplete = some log := hcurrent
      have hsucc : (Action.successor last : Action JournalError (Medium Memory) UInt64) medium =
          .error (.crash .overflow) medium := by
        rw [Action.successor, if_pos hwraps, Action.crash]
      refine ⟨.overflow, medium, ?_⟩
      rw [sealAt, hincomplete, hlast]
      exact Action.bind_of_error hsucc

/-- The name that a log is sealed under can be read back just if there is a log of that name. -/
theorem decodeName?_log (journal : Journal) (start stop : UInt64) :
    Segment.decodeName? (journal.log start stop).name =
      if start ≤ stop ∧ stop ≤ unknownStop then some (start, stop) else none := by
  rw [Segment.name, log, Path.fileName_join _ _ (Segment.slash_notMem_encodeName start stop),
    Segment.decodeName?_encodeName_eq]

end Journal

/-! ### Resets -/

namespace Writer

variable {writer writer' : Writer Stream} {medium : Medium Memory} {frontier : Frontier}
  {expected : UInt64}

/-- A survey gives up the open log, which changes nothing, and then asks for the frontier. -/
theorem exists_survey_eq (hadrift : ∀ log ∈ writer.log, log.Adrift) (medium : Medium Memory) :
    ∃ given, Keeps medium given ∧ survey (writer, medium) = (do
      let frontier ← writer.journal.probe.onSecond
      return (frontier, ← frontier.next) :
        Action JournalError (Writer Stream × Medium Memory) (Frontier × UInt64))
      (writer.gaveUp, given) := by
  rw [survey, Action.get_bind_apply]
  dsimp only
  cases hlog : writer.log with
  | none => exact ⟨medium, .refl medium, by rw [gaveUp_of_log_eq_none hlog]⟩
  | some log =>
    obtain ⟨_, ⟨_, given⟩, habandon, rfl, hkeeps, -⟩ :=
      (OpenLog.ensures_abandon (hadrift log hlog) medium).exists_ok fun _ _ h => h
    refine ⟨given, hkeeps, ?_⟩
    have honLog : onLog log OpenLog.abandon (writer, medium) = .ok () (writer.gaveUp, given) := by
      rw [onLog, Action.zoom, habandon, gaveUp_of_log_eq_some hlog]
    exact Action.bind_of_ok honLog

/-- A reset of a writer whose journal is topped is cut off as soon as a probe answers, with the
medium as it was. -/
theorem reset_of_topped (hadrift : ∀ log ∈ writer.log, log.Adrift) (hhonest : medium.Honest)
    (htopped : writer.journal.Topped medium.storage.files) :
    (∃ after, reset (writer, medium) = .error (.crash .overflow) (writer.gaveUp, after) ∧
      Keeps medium after) ∨
    ∃ e after, reset (writer, medium) = .error (.error e) (writer.gaveUp, after) ∧
      Foiled medium after := by
  obtain ⟨given, hkeeps, hsurvey⟩ := exists_survey_eq hadrift medium
  obtain ⟨frontier, hfrontier⟩ := htopped.exists_frontierOf
  have hnext := (Journal.next?_eq_none_iff hfrontier).2 htopped
  rw [← hkeeps.files_eq] at hfrontier
  rcases (Journal.ensures_probe_of_frontierOf hfrontier
    (hkeeps.toQuieter.honest hhonest)).ok_or_error with
    ⟨found, after, hprobe, hfound, hkeeps'⟩ | ⟨e, after, hprobe, hfoiled⟩
  · rw [hfound] at hprobe
    refine .inl ⟨after, reset_of_survey_error ?_, hkeeps.trans hkeeps'⟩
    have hsecond : (writer.journal.probe.onSecond :
        Action JournalError (Writer Stream × Medium Memory) Frontier) (writer.gaveUp, given) =
          .ok frontier (writer.gaveUp, after) := by
      rw [Action.onSecond, Action.zoom, hprobe]
    rw [hsurvey, Action.bind_of_ok hsecond,
      Action.bind_of_error (Frontier.next_of_next?_eq_none hnext _)]
  · refine .inr ⟨e, after, reset_of_survey_error ?_, hkeeps.foiled hfoiled⟩
    have hsecond : (writer.journal.probe.onSecond :
        Action JournalError (Writer Stream × Medium Memory) Frontier) (writer.gaveUp, given) =
          .error (.error e) (writer.gaveUp, after) := by
      rw [Action.onSecond, Action.zoom, hprobe]
    rw [hsurvey, Action.bind_of_error hsecond]

/-- The end of a journal is rebuilt without being cut off if there is a number behind the last entry
of its incomplete log. -/
theorem ensures_rebuild_of_successor (hsucc : ∀ last, frontier.lastInIncomplete = some last →
    last + 1 ≠ 0) (writer writer' : Writer Stream) (expected : UInt64) (medium : Medium Memory) :
    (rebuild writer frontier expected).Ensures (writer', medium) (fun _ _ => True)
      (fun _ _ => True) := by
  have hseal := (Journal.ends_sealAt_named writer.journal frontier medium).ensures
    fun ⟨last, hlast, hwraps⟩ => hsucc last hlast hwraps
  rw [rebuild, Action.ensures_bind, Action.ensures_discard, Action.ensures_onSecond]
  refine hseal.mono (fun _ done _ => ?_) (fun _ _ _ => trivial)
  rw [Action.ensures_bind, ensures_update, replay, Action.ensures_bind]
  refine (ensures_openLog_of_any _ _ _).mono ?_ (fun _ _ _ => trivial)
  rintro log ⟨opened, after⟩ -
  rw [Action.ensures_bind, ensures_onLog]
  refine (OpenLog.ensures_writeAll_of_any _ log after).mono (fun _ _ _ => ?_) (fun _ _ _ => trivial)
  rw [ensures_update]
  trivial

/-- A reset of a writer whose journal is not topped is not cut off. -/
theorem ensures_reset_of_not_topped (hadrift : ∀ log ∈ writer.log, log.Adrift)
    (hhonest : medium.Honest) (hfree : ¬ writer.journal.Topped medium.storage.files) :
    reset.Ensures (writer, medium) (fun _ _ => True) (fun _ _ => True) := by
  have hsurvey := (ends_survey_frontierOf hadrift hhonest).ensures
    fun ⟨frontier, hfrontier, hnext⟩ => hfree ((Journal.next?_eq_none_iff hfrontier).1 hnext)
  rw [reset_eq, Action.ensures_bind, Action.ensures_get]
  dsimp only
  rw [Action.ensures_bind]
  refine hsurvey.mono ?_ (fun _ _ _ => trivial)
  rintro ⟨frontier, expected⟩ ⟨_, after⟩ ⟨rfl, ⟨hfrontier, -⟩, -⟩
  rw [Action.ensures_bind, Action.ensures_ofExcept]
  refine ⟨fun _ _ => ensures_rebuild_of_successor (fun last hlast hwraps => ?_) _ _ _ _,
    fun _ _ => trivial⟩
  exact hfree ((Journal.topped_iff_of_frontierOf hfrontier).1 ⟨last, hlast, hwraps⟩)

/-- **The greatest word**: a probe is never cut off.  The number behind the frontier it finds, a
sealing there, and a reset are cut off just where an entry with the greatest number can be read from
the log being written; the reset then leaves the medium as it was.  A log that is sealed is where
its name says, and the name can be read back just if the number behind the log's last entry is not
below its start and not above `unknownStop`. -/
theorem Reached.recovers_unless_topped (h : writer.Reached) (hsound : writer.poisoned = false)
    (hneeds : writer.needsReset = true) (hhonest : medium.Honest) :
    let files := medium.storage.files
    ¬ writer.journal.probe.Crashes medium ∧
    (∀ frontier probed, writer.journal.probe medium = .ok frontier probed →
      Keeps medium probed ∧
      ((frontier.next : Action JournalError Unit UInt64).Crashes () ↔
        writer.journal.Topped files) ∧
      ∀ given : Medium Memory,
        ((writer.journal.sealAt frontier).Crashes given ↔ writer.journal.Topped files) ∧
        ∀ sealed after, writer.journal.sealAt frontier given = .ok (some sealed) after →
          after.storage.files.contains sealed.location = true ∧
          (∃ log last, frontier.incomplete = some log ∧ frontier.lastInIncomplete = some last ∧
            sealed.start = log.start ∧ sealed.stop.toNat = last.toNat + 1) ∧
          Segment.decodeName? sealed.name =
            if sealed.start ≤ sealed.stop ∧ sealed.stop ≤ unknownStop
            then some (sealed.start, sealed.stop) else none) ∧
    (¬ writer.journal.Topped files → ¬ reset.Crashes (writer, medium)) ∧
    (writer.journal.Topped files →
      (∃ after, reset (writer, medium) = .error (.crash .overflow) (writer.gaveUp, after) ∧
        Keeps medium after) ∨
      ∃ e after, reset (writer, medium) = .error (.error e) (writer.gaveUp, after) ∧
        Foiled medium after) := by
  have hadrift := (h.tidy hsound).adrift hneeds
  have hprobe := writer.journal.ensures_probe hhonest
  refine ⟨hprobe.not_crashes, fun frontier probed hfound => ?_,
    fun hfree => (ensures_reset_of_not_topped hadrift hhonest hfree).not_crashes,
    fun htopped => reset_of_topped hadrift hhonest htopped⟩
  obtain ⟨hfrontier, hkeeps⟩ := hprobe.of_ok hfound
  refine ⟨hkeeps, Journal.crashes_next_iff hfrontier (), fun given =>
    ⟨Journal.crashes_sealAt_iff hfrontier given, fun sealed after hsealed => ?_⟩⟩
  obtain ⟨log, last, hincomplete, hlast, hsucc, rfl, hpresent⟩ :=
    (Journal.ends_sealAt_named writer.journal frontier given).of_ok hsealed sealed rfl
  exact ⟨hpresent, ⟨log, last, hincomplete, hlast, rfl, Action.toNat_add_one hsucc⟩,
    writer.journal.decodeName?_log _ _⟩

/-- For example, a flush fails, and what was written is in the file nevertheless: the log is sealed
under a name that can be read, and the reset is not cut off. -/
theorem recovers_persisted :
    let journal := Journal.rooted "journal" { gcEnabled := false }
    let medium : Medium Memory := { storage := { publishing := .onFlush } }
    let moves : List Move := [.write ⟨0, [97]⟩, .arm (.flush .persisted), .flush]
    ∃ course, Course.started? journal 0 medium = some course ∧
      let state := ((course.run moves).writer, (course.run moves).medium)
      (∃ frontier probed sealed after,
        state.1.journal.probe state.2 = .ok frontier probed ∧
        state.1.journal.sealAt frontier probed = .ok (some sealed) after ∧
        Segment.decodeName? sealed.name = some (0, 1)) ∧
      ¬ reset.Crashes state := by
  intro journal medium moves
  have hrun : (Course.started? journal 0 medium).map (fun course =>
      let state := ((course.run moves).writer, (course.run moves).medium)
      (state.1.poisoned, state.1.needsReset, state.2.armed,
        (state.1.journal.probe.value? state.2).bind fun frontier =>
          (state.1.journal.sealAt frontier).value? (state.1.journal.probe.leaves state.2))) =
      some (false, true, 0, some (some (journal.log 0 1))) := by
    decide +kernel
  obtain ⟨course, hcourse, hchecked⟩ := Option.map_eq_some_iff.1 hrun
  refine ⟨course, hcourse, ?_⟩
  simp only [Prod.mk.injEq, Option.bind_eq_some_iff] at hchecked
  obtain ⟨hsound, hneeds, hquiet, frontier, hprobe, hsealed⟩ := hchecked
  have hreached := (Reached.started (Course.start_of_started? hcourse)).run moves
  obtain ⟨-, hfound, hfree, -⟩ := hreached.recovers_unless_topped hsound hneeds
    (Medium.tame_of_armed hquiet).honest
  obtain ⟨-, -, hseal⟩ := hfound frontier _ (Action.eq_ok_leaves hprobe)
  obtain ⟨htopped, hnamed⟩ := hseal (Action.leaves _ (course.run moves).medium)
  obtain ⟨-, -, hname⟩ := hnamed _ _ (Action.eq_ok_leaves hsealed)
  refine ⟨⟨frontier, _, _, _, Action.eq_ok_leaves hprobe, Action.eq_ok_leaves hsealed, hname⟩,
    hfree fun h => ?_⟩
  obtain ⟨_, _, hcrash⟩ := htopped.2 h
  rw [Action.eq_ok_leaves hsealed] at hcrash
  cases hcrash

/-- A reset is cut off, and the writer is of no more use, where an entry with the greatest number
lies ahead of the writer; and a log whose last entry is below its start is sealed under a name that
cannot be read. -/
theorem recovery_cut_off :
    let journal := Journal.rooted "journal" { gcEnabled := false }
    let medium : Medium Memory := { storage := { publishing := .onFlush } }
    let moves : List Move := [.write ⟨0, [97]⟩, .arm (.flush .lost), .flush]
    let put (path : String) (entry : Entry) (medium : Medium Memory) : Medium Memory :=
      { medium with storage := Storage.put path entry.encode medium.storage }
    (∃ course, Course.started? journal 0 medium = some course ∧
      let state := ((course.run moves).writer, put (journal.log 0 unknownStop).location
        ⟨0xffffffffffffffff, [97]⟩ (course.run moves).medium)
      state.1.Reached ∧ state.1.needsReset = true ∧ state.1.poisoned = false ∧
        state.2.armed = 0 ∧ reset.Crashes state ∧
        ((write ⟨0, [98]⟩).leaves state).1.poisoned = true) ∧
    let behind := put (journal.log 10 unknownStop).location ⟨3, [97]⟩ medium
    ∃ frontier probed sealed after, journal.probe behind = .ok frontier probed ∧
      journal.sealAt frontier probed = .ok (some sealed) after ∧
      Segment.decodeName? sealed.name = none := by
  intro journal medium moves put
  have hrun : (Course.started? journal 0 medium).map (fun course =>
      let state := ((course.run moves).writer, put (journal.log 0 unknownStop).location
        ⟨0xffffffffffffffff, [97]⟩ (course.run moves).medium)
      (state.1.needsReset, state.1.poisoned, state.2.armed, decide (reset.Crashes state),
        ((write ⟨0, [98]⟩).leaves state).1.poisoned)) = some (true, false, 0, true, true) := by
    decide +kernel
  have hnamed : (journal.probe.value?
      (put (journal.log 10 unknownStop).location ⟨3, [97]⟩ medium)).map (fun frontier =>
        (journal.sealAt frontier).value? (journal.probe.leaves
          (put (journal.log 10 unknownStop).location ⟨3, [97]⟩ medium))) =
      some (some (some (journal.log 10 4))) := by
    decide +kernel
  obtain ⟨course, hcourse, hchecked⟩ := Option.map_eq_some_iff.1 hrun
  obtain ⟨frontier, hprobe, hsealed⟩ := Option.map_eq_some_iff.1 hnamed
  simp only [Prod.mk.injEq, decide_eq_true_eq] at hchecked
  have hreached := (Reached.started (Course.start_of_started? hcourse)).run moves
  refine ⟨⟨course, hcourse, hreached, hchecked⟩, frontier, _, _, _, Action.eq_ok_leaves hprobe,
    Action.eq_ok_leaves hsealed, ?_⟩
  rw [journal.decodeName?_log 10 4]
  decide

end Writer

end SegmentedJournal
