import SegmentedJournal.Proofs.Logs
/-!
# Moving a log to where it is complete

A log is completed in steps, each of which can fail: what stands at the new path is removed, then
the file is renamed.  The files on the way (`PathMap.Moving`) are as they were found, or without
what stood at the new path, or done (`PathMap.moved`), and moving on from any of them ends in the
same files.  An attempt to commit a log closes its stream (`OpenLog.closedFiles`) and moves its file
so (`OpenLog.ensures_commit_moved`), and an attempt to seal it moves it to where the frontier is
(`Journal.ensures_reseal`), or removes it if it has no entries (`Journal.ensures_reseal_empty`).
-/

namespace SegmentedJournal

open Memory (Stream)
open Medium (Fired Foiled Keeps Quieter)

/-! ### Moving a file -/

namespace PathMap

variable {α : Type} {source target path : String} {files files' files'' : PathMap α}

/-- The files with one at another path, where it takes the place of what stands there. -/
def moved (source target : String) (files : PathMap α) : PathMap α :=
  match files.get? source with
  | some contents => (files.erase source).insert target contents
  | none => files

theorem moved_of_some {contents : α} (h : files.get? source = some contents) :
    files.moved source target = (files.erase source).insert target contents := by
  rw [moved, h]

theorem moved_of_none (h : files.get? source = none) : files.moved source target = files := by
  rw [moved, h]

theorem get?_moved_source (hne : source ≠ target) :
    (files.moved source target).get? source = none := by
  cases h : files.get? source with
  | none => rwa [moved_of_none h]
  | some contents => simp [moved_of_some h, hne.symm]

theorem get?_moved_target {contents : α} (h : files.get? source = some contents) :
    (files.moved source target).get? target = some contents := by
  simp [moved_of_some h]

theorem get?_moved_of_ne (hsource : path ≠ source) (htarget : path ≠ target) :
    (files.moved source target).get? path = files.get? path := by
  cases h : files.get? source with
  | none => rw [moved_of_none h]
  | some contents => simp [moved_of_some h, hsource.symm, htarget.symm]

/-- Once the file is moved there is nothing to move. -/
theorem moved_moved (hne : source ≠ target) :
    (files.moved source target).moved source target = files.moved source target :=
  moved_of_none (get?_moved_source hne)

/-- What stands at the new path can be removed before. -/
theorem moved_erase (hne : source ≠ target) (h : files.contains source = true) :
    (files.erase target).moved source target = files.moved source target := by
  obtain ⟨contents, hget⟩ := contains_iff.1 h
  have hget' : (files.erase target).get? source = some contents := by
    rw [get?_erase, if_neg hne.symm, hget]
  rw [moved_of_some hget, moved_of_some hget']
  refine ext fun path => ?_
  simp only [get?_insert, get?_erase]
  split
  · rfl
  · rfl

/-- Whether there is a file at one path or at another. -/
def eitherPresent (source target : String) (files : PathMap α) : Bool :=
  files.contains source || files.contains target

/-- The files on the way from `files` to those where one is moved. -/
inductive Moving (source target : String) (files : PathMap α) : PathMap α → Prop where
  /-- Nothing has happened. -/
  | waiting : Moving source target files files
  /-- What stood at the new path is gone. -/
  | cleared (h : files.contains source = true) : Moving source target files (files.erase target)
  /-- The file is moved. -/
  | arrived : Moving source target files (files.moved source target)

namespace Moving

/-- Moving on ends in the same files. -/
theorem moved_eq (h : Moving source target files files') (hne : source ≠ target) :
    files'.moved source target = files.moved source target := by
  cases h with
  | waiting => rfl
  | cleared hsource => exact moved_erase hne hsource
  | arrived => exact moved_moved hne

/-- Nothing moves on from files where the file is moved. -/
theorem eq_of_moved (h : Moving source target (files.moved source target) files')
    (hne : source ≠ target) : files' = files.moved source target := by
  cases h with
  | waiting => rfl
  | cleared hsource =>
      obtain ⟨contents, hget⟩ := contains_iff.1 hsource
      rw [get?_moved_source hne] at hget
      cases hget
  | arrived => exact moved_moved hne

theorem trans (h : Moving source target files files') (h' : Moving source target files' files'')
    (hne : source ≠ target) : Moving source target files files'' := by
  cases h with
  | waiting => exact h'
  | arrived =>
      rw [h'.eq_of_moved hne]
      exact .arrived
  | cleared hsource =>
      cases h' with
      | waiting => exact .cleared hsource
      | arrived =>
          rw [moved_erase hne hsource]
          exact .arrived
      | cleared _ =>
          have htwice : (files.erase target).erase target = files.erase target := by
            refine ext fun path => ?_
            simp only [get?_erase]
            split <;> rfl
          rw [htwice]
          exact .cleared hsource

/-- The file is at the old path or at the new one. -/
theorem intact {contents : α} (h : Moving source target files files') (hne : source ≠ target)
    (hget : files.get? source = some contents) :
    files'.get? source = some contents ∨ files'.get? target = some contents := by
  cases h with
  | waiting => exact .inl hget
  | cleared _ => exact .inl (by rw [get?_erase, if_neg hne.symm, hget])
  | arrived => exact .inr (get?_moved_target hget)

/-- No other file is touched. -/
theorem get?_eq (h : Moving source target files files') (hsource : path ≠ source)
    (htarget : path ≠ target) : files'.get? path = files.get? path := by
  cases h with
  | waiting => rfl
  | cleared _ => rw [get?_erase, if_neg htarget.symm]
  | arrived => exact get?_moved_of_ne hsource htarget

/-- Where the file is still at the old path, it is the file that was found. -/
theorem get?_source (h : Moving source target files files') (hne : source ≠ target)
    (hthere : files'.contains source = true) : files'.get? source = files.get? source := by
  cases h with
  | waiting => rfl
  | cleared _ => rw [get?_erase, if_neg hne.symm]
  | arrived =>
      rw [contains, get?_moved_source hne] at hthere
      cases hthere

theorem eitherPresent_eq (h : Moving source target files files') (hne : source ≠ target) :
    eitherPresent source target files' = eitherPresent source target files := by
  cases h with
  | waiting => rfl
  | cleared hsource =>
      have hkept : (files.erase target).contains source = true :=
        (contains_erase ..).2 ⟨hne.symm, hsource⟩
      rw [eitherPresent, eitherPresent, hsource, hkept, Bool.true_or, Bool.true_or]
  | arrived =>
      cases hget : files.get? source with
      | none => rw [moved_of_none hget]
      | some contents =>
          have hthere : (files.moved source target).contains target = true :=
            contains_iff.2 ⟨_, get?_moved_target hget⟩
          rw [eitherPresent, eitherPresent, hthere, contains_iff.2 ⟨_, hget⟩, Bool.or_true,
            Bool.true_or]

end Moving

end PathMap

/-! ### Closing a log -/

namespace Memory.Stream

variable {stream : Stream} {memory memory' : Memory}

/-- The files once the stream is closed. -/
def closedFiles (stream : Stream) (memory : Memory) : PathMap Bytes :=
  match stream.phase with
  | .live => (memory.publish stream.path stream.pending (memory.publishing = .onClose)).files
  | .broken | .closed => memory.files

/-- Closing depends on the files and on when streams publish, and not on what is armed. -/
theorem closedFiles_congr (stream : Stream) (hfiles : memory'.files = memory.files)
    (hpublishing : memory'.publishing = memory.publishing) :
    stream.closedFiles memory' = stream.closedFiles memory := by
  unfold closedFiles
  split
  · refine PathMap.ext fun path => ?_
    rw [get?_publish, get?_publish, hfiles, hpublishing]
  · exact hfiles
  · exact hfiles

/-- Closing touches no file but the stream's. -/
theorem get?_closedFiles {path : String} (hne : stream.path ≠ path) :
    (stream.closedFiles memory).get? path = memory.files.get? path := by
  unfold closedFiles
  split
  · rw [get?_publish, if_neg hne]
  · rfl
  · rfl

end Memory.Stream

namespace OpenLog

variable {log : OpenLog Stream} {memory memory' : Memory}

/-- The files once the log's stream, if it has one, is closed. -/
def closedFiles (log : OpenLog Stream) (memory : Memory) : PathMap Bytes :=
  match log.stream with
  | none => memory.files
  | some stream => stream.closedFiles memory

theorem closedFiles_of_none (h : log.stream = none) (memory : Memory) :
    log.closedFiles memory = memory.files := by
  rw [closedFiles, h]

theorem closedFiles_of_some {stream : Stream} (h : log.stream = some stream) (memory : Memory) :
    log.closedFiles memory = stream.closedFiles memory := by
  rw [closedFiles, h]

theorem closedFiles_congr (log : OpenLog Stream) (hfiles : memory'.files = memory.files)
    (hpublishing : memory'.publishing = memory.publishing) :
    log.closedFiles memory' = log.closedFiles memory := by
  unfold closedFiles
  split
  · exact hfiles
  · exact Stream.closedFiles_congr _ hfiles hpublishing

theorem get?_closedFiles (hpath : ∀ stream ∈ log.stream, stream.path = log.location)
    {path : String} (hne : path ≠ log.location) :
    (log.closedFiles memory).get? path = memory.files.get? path := by
  unfold closedFiles
  split
  · rfl
  · next stream hstream =>
    refine Stream.get?_closedFiles ?_
    rw [hpath stream hstream]
    exact hne.symm

/-- A stream is closed, unless that was made to fail. -/
theorem ensures_closeStream_of_willing (stream : Stream) (medium : Medium Memory)
    (hwilling : ∀ fault ∈ medium.callFaults, fault.call ≠ .close) :
    (closeStream stream : Action IoError (Medium Memory) Unit).Ensures medium
      (fun _ after => Quieter medium after ∧
        after.storage.files = stream.closedFiles medium.storage) (fun _ _ => False) := by
  rw [ensures_closeStream, Medium.close, Action.ensures_bind, Action.ensures_onSecond]
  refine (Medium.ensures_consult .close medium).mono ?_ (fun _ _ h => h.elim)
  rintro fired after ⟨hstorage, hkeeps, hfired⟩
  rw [Action.ensures_ite]
  refine ⟨fun hsome => ?_, fun _ => ?_⟩
  · obtain ⟨-, armed, harmed, hcall⟩ := hfired hsome
    exact hwilling armed harmed hcall
  · rw [Medium.ensures_onStream]
    simp only [Storage.close, Stream.close, Stream.closedFiles]
    cases stream.phase with
    | live =>
        refine ⟨hkeeps.toQuieter.trans (Medium.quieter_storage (Memory.publishing_publish ..)
          (Nat.le_of_eq (congrArg List.length (Memory.faults_publish ..)))), ?_⟩
        rw [hstorage]
    | broken => exact ⟨hkeeps.toQuieter, hkeeps.files_eq⟩
    | closed => exact ⟨hkeeps.toQuieter, hkeeps.files_eq⟩

end OpenLog

/-! ### One attempt -/

namespace Medium

open PathMap (Moving)

variable {source target : String} {medium : Medium Memory}

/-- A file whose new path is free is renamed. -/
theorem ensures_rename_moved (hsource : medium.storage.files.contains source = true)
    (htarget : medium.storage.files.contains target = false) :
    (rename source target).Ensures medium
      (fun _ after => Quieter medium after ∧
        after.storage.files = medium.storage.files.moved source target)
      (fun _ after => Foiled medium after) := by
  obtain ⟨contents, hget⟩ := PathMap.contains_iff.1 hsource
  rw [PathMap.moved_of_some hget]
  exact ensures_rename medium hget htarget

end Medium

namespace Journal

open PathMap (Moving)

variable {journal : Journal} {segment : Segment} {source target : String} {next : UInt64}
  {medium : Medium Memory}

/-- What stands in the way is removed, and the file is renamed. -/
theorem ensures_replace {α : Type} (answer : α)
    (hsource : medium.storage.files.contains source = true) (hne : source ≠ target) :
    (do
      if medium.storage.files.contains target then removeDuplicate target
      (Medium.rename source target).mapError (.medium source)
      return answer : Action JournalError (Medium Memory) α).Ensures medium
      (fun value after => value = answer ∧ Quieter medium after ∧
        after.storage.files = medium.storage.files.moved source target)
      (fun _ after => Fired medium after ∧
        Moving source target medium.storage.files after.storage.files) := by
  cases htarget : medium.storage.files.contains target with
  | false =>
      simp only [Bool.false_eq_true, if_false, Action.ensures_bind, Action.ensures_mapError]
      refine (Medium.ensures_rename_moved hsource htarget).mono (fun _ _ h => ⟨rfl, h⟩) ?_
      intro e after hfoiled
      rw [hfoiled.files_eq]
      exact ⟨hfoiled.toFired, .waiting⟩
  | true =>
      simp only [if_true, Action.ensures_bind, removeDuplicate, Action.ensures_mapError,
        Medium.ensures_warn]
      refine (Medium.ensures_delete_of_present
        { medium with warnings := medium.warnings ++ [.duplicateLog] } htarget).mono ?_ ?_
      · rintro _ cleared ⟨hquieter, hfiles⟩
        have hquieter := (Medium.keeps_warnings medium _).toQuieter.trans hquieter
        have hkept : cleared.storage.files.contains source = true := by
          rw [hfiles]
          exact (PathMap.contains_erase ..).2 ⟨hne.symm, hsource⟩
        have hfree : cleared.storage.files.contains target = false := by
          rw [hfiles, PathMap.contains, PathMap.get?_erase, if_pos rfl]
          rfl
        refine (Medium.ensures_rename_moved hkept hfree).mono ?_ ?_
        · rintro _ after ⟨hquieter', hmoved⟩
          rw [hfiles, PathMap.moved_erase hne hsource] at hmoved
          exact ⟨rfl, hquieter.trans hquieter', hmoved⟩
        · rintro e after hfoiled
          rw [hfoiled.files_eq, hfiles]
          exact ⟨hquieter.fired hfoiled.toFired, .cleared hsource⟩
      · rintro e after hfoiled
        rw [hfoiled.files_eq]
        exact ⟨(Medium.keeps_warnings medium _).toQuieter.fired hfoiled.toFired, .waiting⟩

/-- The answer of completing a log: the completed log, unless there is nothing to complete. -/
def completedIn (files : PathMap Bytes) (segment completed : Segment) : Option Segment :=
  if PathMap.eitherPresent segment.location completed.location files then some completed else none

/-- An attempt to complete a log moves its file on. -/
theorem ensures_complete_moved (hlt : segment.start < next)
    (hne : segment.location ≠ (journal.log segment.start next).location) :
    (journal.complete segment next).Ensures medium
      (fun answer after => Quieter medium after ∧
        answer = completedIn medium.storage.files segment (journal.log segment.start next) ∧
        after.storage.files = medium.storage.files.moved segment.location
          (journal.log segment.start next).location)
      (fun _ after => Fired medium after ∧ Moving segment.location
        (journal.log segment.start next).location medium.storage.files after.storage.files) := by
  unfold complete
  rw [if_neg (UInt64.lt_asymm hlt), if_neg (UInt64.ne_of_lt hlt).symm]
  generalize journal.log segment.start next = completed at hne
  simp only [Action.ensures_bind, isPresent, Action.ensures_mapError]
  refine (Medium.ensures_isPresent _ medium).mono ?_ ?_
  · rintro _ middle ⟨rfl, hkeeps⟩
    refine (Medium.ensures_isPresent _ middle).mono ?_ ?_
    · rintro _ last ⟨rfl, hkeeps'⟩
      have hkeeps := hkeeps.trans hkeeps'
      rw [completedIn, PathMap.eitherPresent, ← hkeeps.files_eq, ← hkeeps'.files_eq]
      cases hsource : last.storage.files.contains segment.location with
      | true =>
          rw [if_pos rfl, Bool.true_or, if_pos rfl]
          refine (ensures_replace (some completed) hsource hne).mono ?_ ?_
          · rintro _ after ⟨rfl, hquieter, hfiles⟩
            exact ⟨hkeeps.toQuieter.trans hquieter, rfl, hfiles⟩
          · rintro e after ⟨hfired, hmoving⟩
            exact ⟨hkeeps.toQuieter.fired hfired, hmoving⟩
      | false =>
          have hnone : last.storage.files.get? segment.location = none :=
            Option.not_isSome_iff_eq_none.1 (Bool.eq_false_iff.1 hsource)
          rw [PathMap.moved_of_none hnone, if_neg Bool.false_ne_true, Bool.false_or]
          cases last.storage.files.contains completed.location with
          | true => exact ⟨hkeeps.toQuieter, rfl, rfl⟩
          | false => exact ⟨(hkeeps.trans (Medium.keeps_warnings _ _)).toQuieter, rfl, rfl⟩
    · rintro e after hfoiled
      rw [hfoiled.files_eq, hkeeps.files_eq]
      exact ⟨(hkeeps.foiled hfoiled).toFired, .waiting⟩
  · rintro e after hfoiled
    rw [hfoiled.files_eq]
    exact ⟨hfoiled.toFired, .waiting⟩

end Journal

namespace OpenLog

open PathMap (Moving)

variable {journal : Journal} {log : OpenLog Stream} {next : UInt64} {medium : Medium Memory}

/-- Once the stream is closed, a log is committed as it is completed. -/
theorem ensures_commit_of_complete {Q : Option Segment → OpenLog Stream × Medium Memory → Prop}
    {E : JournalError → OpenLog Stream × Medium Memory → Prop}
    (hwilling : ∀ fault ∈ medium.callFaults, fault.call ≠ .close)
    (h : ∀ closed, Quieter medium closed → closed.storage.files = log.closedFiles medium.storage →
      (journal.complete log.segment next).Ensures closed
        (fun answer after => Q answer ({ log with stream := none }, after))
        (fun e after => E e ({ log with stream := none }, after))) :
    (commit journal next).Ensures (log, medium) Q E := by
  rw [commit, Action.ensures_bind, Action.ensures_get]
  dsimp only
  rw [Action.ensures_bind, ensures_takeStream]
  cases hstream : log.stream with
  | none =>
      dsimp only
      rw [Action.ensures_onSecond]
      exact h medium (.refl medium) (closedFiles_of_none hstream _).symm
  | some stream =>
      dsimp only
      rw [Action.ensures_bind, Action.ensures_onSecond, Action.ensures_mapError]
      refine (ensures_closeStream_of_willing stream medium hwilling).mono ?_ (fun _ _ h => h.elim)
      rintro _ closed ⟨hquieter, hfiles⟩
      rw [Action.ensures_onSecond]
      exact h closed hquieter (hfiles.trans (closedFiles_of_some hstream _).symm)

/-- An attempt to commit a log closes its stream and moves its file on. -/
theorem ensures_commit_moved (hwilling : ∀ fault ∈ medium.callFaults, fault.call ≠ .close)
    (hlt : log.segment.start < next)
    (hne : log.location ≠ (journal.log log.segment.start next).location) :
    (commit journal next).Ensures (log, medium)
      (fun answer s => s.1 = { log with stream := none } ∧ Quieter medium s.2 ∧
        answer = Journal.completedIn (log.closedFiles medium.storage) log.segment
          (journal.log log.segment.start next) ∧
        s.2.storage.files = (log.closedFiles medium.storage).moved log.location
          (journal.log log.segment.start next).location)
      (fun _ s => s.1 = { log with stream := none } ∧ Fired medium s.2 ∧
        Moving log.location (journal.log log.segment.start next).location
          (log.closedFiles medium.storage) s.2.storage.files) := by
  refine ensures_commit_of_complete hwilling fun closed hquieter hfiles => ?_
  rw [← hfiles]
  refine (Journal.ensures_complete_moved hlt hne).mono ?_ ?_
  · rintro answer after ⟨hquieter', hmoved⟩
    exact ⟨rfl, hquieter.trans hquieter', hmoved⟩
  · rintro e after ⟨hfired, hmoving⟩
    exact ⟨rfl, hquieter.fired hfired, hmoving⟩

end OpenLog

namespace Journal

open PathMap (Moving)

variable {journal : Journal} {files found : PathMap Bytes} {current : Option Segment}
  {log completed : Segment} {contents : Bytes} {last : UInt64} {medium : Medium Memory}

/-- The current log of the files. -/
def Opens (journal : Journal) (files : PathMap Bytes) (current : Option Segment) : Prop :=
  ∀ segment, current = some segment ↔
    journal.Has files .log segment ∧ segment.stop = unknownStop

/-- The current log does not have the name of a complete one. -/
theorem Opens.location_ne {start stop : UInt64} (h : journal.Opens files (some log))
    (hstop : stop ≠ unknownStop) : log.location ≠ (journal.log start stop).location := by
  obtain ⟨hlog, hlogStop⟩ := (h log).1 rfl
  exact fun heq => hstop ((hlog.places.stop_of_location heq).symm.trans hlogStop)

/-- Which logs are complete and which checkpoints there are is read off the files, too. -/
theorem Opens.exists_lists (h : journal.Opens files current) :
    ∃ checkpoints complete, journal.Lists files checkpoints complete current := by
  refine ⟨journal.segmentsIn .checkpoint files,
    (journal.segmentsIn .log files).filter (fun log => !log.isIncomplete),
    pairwise_segmentsIn _ _ _, fun _ => mem_segmentsIn,
    (pairwise_segmentsIn _ _ _).filter _, ?_, h⟩
  intro segment
  rw [List.mem_filter, mem_segmentsIn, Bool.not_eq_true', ← Bool.not_eq_true, isIncomplete_iff]

/-- The frontier of files with a current log. -/
theorem Opens.frontierOf_of_some (h : journal.Opens files (some log))
    (hget : files.get? log.location = some contents) :
    ∃ frontier, journal.frontierOf files = .ok frontier ∧ frontier.incomplete = some log ∧
      frontier.lastInIncomplete =
        SegmentReader.greatest? { segment := log, rest := contents } := by
  obtain ⟨checkpoints, complete, hlists⟩ := h.exists_lists
  exact ⟨_, Journal.frontierOf_of_some hlists.snapshotOf_eq rfl hget, rfl, rfl⟩

/-- The frontier of files without one. -/
theorem Opens.frontierOf_of_none (h : journal.Opens files none) :
    ∃ frontier, journal.frontierOf files = .ok frontier ∧ frontier.incomplete = none := by
  obtain ⟨checkpoints, complete, hlists⟩ := h.exists_lists
  exact ⟨_, Journal.frontierOf_of_none hlists.snapshotOf_eq rfl, rfl⟩

/-- While the current log is moved to where it is complete, it is the current log until it is gone,
and then there is none. -/
theorem Opens.of_moving {stop : UInt64} (h : journal.Opens found (some log))
    (hcompleted : completed = journal.log log.start stop) (hstop : stop ≠ unknownStop)
    (hmoving : Moving log.location completed.location found files) :
    journal.Opens files (if files.contains log.location then some log else none) := by
  obtain ⟨hlog, hlogStop⟩ := (h log).1 rfl
  intro segment
  constructor
  · intro hsegment
    split at hsegment
    · next hthere =>
      cases hsegment
      exact ⟨⟨hlog.places, hlog.kind_eq, hthere⟩, hlogStop⟩
    · cases hsegment
  · rintro ⟨hsegment, hsegmentStop⟩
    by_cases hsame : segment.location = log.location
    · obtain rfl := hsegment.places.eq_of_location hlog.places hsame
      rw [if_pos hsegment.present]
    · -- No incomplete log has a complete log's name, so it was there before.
      have hother : segment.location ≠ completed.location := by
        intro heq
        rw [hcompleted] at heq
        exact hstop ((hsegment.places.stop_of_location heq).symm.trans hsegmentStop)
      have hpresent := hsegment.present
      rw [PathMap.contains, hmoving.get?_eq hsame hother] at hpresent
      have hcurrent := (h segment).2
        ⟨⟨hsegment.places, hsegment.kind_eq, hpresent⟩, hsegmentStop⟩
      cases hcurrent
      exact absurd rfl hsame

theorem ensures_probe_of_frontierOf {frontier : Frontier}
    (h : journal.frontierOf medium.storage.files = .ok frontier) (hhonest : medium.Honest) :
    journal.probe.Ensures medium (fun value after => value = frontier ∧ Keeps medium after)
      (fun _ after => Foiled medium after) := by
  refine (ensures_probe journal hhonest).mono ?_ ?_
  · rintro value after ⟨hvalue, hkeeps⟩
    exact ⟨Except.ok.inj (hvalue.symm.trans h), hkeeps⟩
  · rintro e after (⟨herror, -⟩ | ⟨-, hfoiled⟩)
    · rw [h] at herror
      cases herror
    · exact hfoiled

/-- A log with entries is sealed by moving its file on. -/
theorem ensures_sealAt_of_some {frontier : Frontier} (hincomplete : frontier.incomplete = some log)
    (hlast : frontier.lastInIncomplete = some last) (hsucc : last + 1 ≠ 0)
    (hcompleted : completed = journal.log log.start (last + 1))
    (hne : log.location ≠ completed.location)
    (hthere : medium.storage.files.contains log.location = true) :
    (journal.sealAt frontier).Ensures medium
      (fun answer after => answer = some completed ∧ Quieter medium after ∧
        after.storage.files = medium.storage.files.moved log.location completed.location)
      (fun _ after => Fired medium after ∧
        Moving log.location completed.location medium.storage.files after.storage.files) := by
  rw [sealAt, hincomplete, hlast]
  dsimp only
  rw [Action.ensures_bind, Action.successor, if_neg hsucc, Action.ensures_pure, ← hcompleted,
    Action.ensures_bind, Action.ensures_mapError]
  refine (Medium.ensures_isPresent _ medium).mono ?_ ?_
  · rintro _ asked ⟨rfl, hkeeps⟩
    rw [← hkeeps.files_eq] at hthere ⊢
    refine (ensures_replace (some completed) hthere hne).mono ?_ ?_
    · rintro _ after ⟨rfl, hquieter, hfiles⟩
      exact ⟨rfl, hkeeps.toQuieter.trans hquieter, hfiles⟩
    · rintro e after ⟨hfired, hmoving⟩
      exact ⟨hkeeps.toQuieter.fired hfired, hmoving⟩
  · rintro e after hfoiled
    rw [hfoiled.files_eq]
    exact ⟨hfoiled.toFired, .waiting⟩

/-- A log without entries is sealed by removing its file. -/
theorem ensures_sealAt_of_none {frontier : Frontier} (hincomplete : frontier.incomplete = some log)
    (hlast : frontier.lastInIncomplete = none)
    (hthere : medium.storage.files.contains log.location = true) :
    (journal.sealAt frontier).Ensures medium
      (fun answer after => answer = none ∧ Quieter medium after ∧
        after.storage.files = medium.storage.files.erase log.location)
      (fun _ after => Foiled medium after) := by
  rw [sealAt, hincomplete, hlast]
  dsimp only
  rw [Action.ensures_bind, Action.ensures_mapError]
  exact (Medium.ensures_delete_of_present medium hthere).mono (fun _ _ h => ⟨rfl, h⟩)
    (fun _ _ h => h)

/-- An attempt to find the frontier and to seal the current log there. -/
def reseal (journal : Journal) : Action JournalError (Medium Memory) (Option Segment) := do
  journal.sealAt (← journal.probe)

/-- An attempt to seal the log moves its file on. -/
theorem ensures_reseal (h : journal.Opens found (some log))
    (hget : found.get? log.location = some contents)
    (hlast : SegmentReader.greatest? { segment := log, rest := contents } = some last)
    (hsucc : last + 1 ≠ 0) (hstop : last + 1 ≠ unknownStop)
    (hcompleted : completed = journal.log log.start (last + 1))
    (hne : log.location ≠ completed.location)
    (hmoving : Moving log.location completed.location found medium.storage.files)
    (hhonest : medium.Honest) :
    journal.reseal.Ensures medium
      (fun answer after => Quieter medium after ∧
        answer = (if medium.storage.files.contains log.location then some completed else none) ∧
        after.storage.files = medium.storage.files.moved log.location completed.location)
      (fun _ after => Fired medium after ∧
        Moving log.location completed.location medium.storage.files after.storage.files) := by
  have hopens := h.of_moving hcompleted hstop hmoving
  have hwaiting (after : Medium Memory) (hfoiled : Foiled medium after) :
      Fired medium after ∧
        Moving log.location completed.location medium.storage.files after.storage.files := by
    rw [hfoiled.files_eq]
    exact ⟨hfoiled.toFired, .waiting⟩
  rw [reseal, Action.ensures_bind]
  cases hthere : medium.storage.files.contains log.location with
  | false =>
      rw [hthere, if_neg Bool.false_ne_true] at hopens
      obtain ⟨frontier, hfrontier, hincomplete⟩ := hopens.frontierOf_of_none
      refine (ensures_probe_of_frontierOf hfrontier hhonest).mono ?_ (fun _ => hwaiting)
      rintro _ probed ⟨rfl, hkeeps⟩
      have hnone : medium.storage.files.get? log.location = none :=
        Option.not_isSome_iff_eq_none.1 (Bool.eq_false_iff.1 hthere)
      rw [sealAt, hincomplete, PathMap.moved_of_none hnone]
      exact ⟨hkeeps.toQuieter, rfl, hkeeps.files_eq⟩
  | true =>
      rw [hthere, if_pos rfl] at hopens
      have hget' := (hmoving.get?_source hne hthere).trans hget
      obtain ⟨frontier, hfrontier, hincomplete, hlastIn⟩ := hopens.frontierOf_of_some hget'
      refine (ensures_probe_of_frontierOf hfrontier hhonest).mono ?_ (fun _ => hwaiting)
      rintro _ probed ⟨rfl, hkeeps⟩
      rw [← hkeeps.files_eq] at hthere ⊢
      refine (ensures_sealAt_of_some hincomplete (hlastIn.trans hlast) hsucc hcompleted hne
        hthere).mono ?_ ?_
      · rintro _ after ⟨rfl, hquieter, hfiles⟩
        exact ⟨hkeeps.toQuieter.trans hquieter, rfl, hfiles⟩
      · rintro e after ⟨hfired, hmoving⟩
        exact ⟨hkeeps.toQuieter.fired hfired, hmoving⟩

/-- An attempt to seal a log without entries removes it. -/
theorem ensures_reseal_empty (h : journal.Opens found (some log))
    (hget : found.get? log.location = some contents)
    (hlast : SegmentReader.greatest? { segment := log, rest := contents } = none)
    (hfiles : medium.storage.files = found ∨ medium.storage.files = found.erase log.location)
    (hhonest : medium.Honest) :
    journal.reseal.Ensures medium
      (fun answer after => Quieter medium after ∧ answer = none ∧
        after.storage.files = found.erase log.location)
      (fun _ after => Fired medium after ∧ after.storage.files = medium.storage.files) := by
  rw [reseal, Action.ensures_bind]
  rcases hfiles with hfiles | hfiles
  · rw [← hfiles] at h hget ⊢
    obtain ⟨frontier, hfrontier, hincomplete, hlastIn⟩ := h.frontierOf_of_some hget
    refine (ensures_probe_of_frontierOf hfrontier hhonest).mono ?_
      (fun _ _ hfoiled => ⟨hfoiled.toFired, hfoiled.files_eq⟩)
    rintro _ probed ⟨rfl, hkeeps⟩
    have hthere := PathMap.contains_iff.2 ⟨_, hget⟩
    rw [← hkeeps.files_eq] at hthere ⊢
    refine (ensures_sealAt_of_none hincomplete (hlastIn.trans hlast) hthere).mono ?_ ?_
    · rintro _ after ⟨rfl, hquieter, herased⟩
      exact ⟨hkeeps.toQuieter.trans hquieter, rfl, herased⟩
    · rintro e after hfoiled
      exact ⟨(hkeeps.foiled hfoiled).toFired, hfoiled.files_eq⟩
  · obtain ⟨checkpoints, complete, hlists⟩ := h.exists_lists
    have hopens : journal.Opens medium.storage.files none :=
      hfiles ▸ hlists.erase_current.mem_current
    obtain ⟨frontier, hfrontier, hincomplete⟩ := hopens.frontierOf_of_none
    refine (ensures_probe_of_frontierOf hfrontier hhonest).mono ?_
      (fun _ _ hfoiled => ⟨hfoiled.toFired, hfoiled.files_eq⟩)
    rintro _ probed ⟨rfl, hkeeps⟩
    rw [sealAt, hincomplete]
    exact ⟨hkeeps.toQuieter, rfl, hkeeps.files_eq.trans hfiles⟩

end Journal

end SegmentedJournal
