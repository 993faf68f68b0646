import SegmentedJournal.Proofs.Moving
/-!
# Attempts that are made again

`Retried x rearms begun answers s` are the states that attempts at `x` reach one after the other,
with failures armed anew before each.  Attempts to commit a log (`OpenLog.Underway`) and attempts to
seal it (`Journal.Resealing`) leave its file on the way to where it is complete.  So however they
fail, what the file held is at the old path or at the new one, no other file is touched, and one
attempt that succeeds has done all there is to do (`Journal.attempts_settle`).
-/

namespace SegmentedJournal

open Memory (Stream)
open Medium (Fired)

/-! ### Attempts one after the other -/

/-- The states that attempts reach, one after the other, and what each answered with; before each
the state may be put into another that is the same but for the failures armed. -/
inductive Retried {ε σ α : Type} (x : Action ε σ α) (rearms : σ → σ → Prop) (begun : σ) :
    List (Option α) → σ → Prop where
  /-- Nothing was attempted yet. -/
  | begun : Retried x rearms begun [] begun
  /-- It was attempted again. -/
  | again {answers : List (Option α)} {s armed : σ} (h : Retried x rearms begun answers s)
      (hrearms : rearms s armed) :
      Retried x rearms begun (answers ++ [x.value? armed]) (x.leaves armed)

section

variable {ε σ α : Type} {x : Action ε σ α} {rearms : σ → σ → Prop} {begun s : σ}
  {answers : List (Option α)}

theorem Action.Ensures.value?_leaves {Q : α → σ → Prop} {E : ε → σ → Prop}
    (h : x.Ensures s Q E) :
    (∃ a, x.value? s = some a ∧ Q a (x.leaves s)) ∨
      x.value? s = none ∧ ∃ e, E e (x.leaves s) := by
  rcases h.ok_or_error with ⟨a, t, hrun, hQ⟩ | ⟨e, t, hrun, hE⟩
  · exact .inl ⟨a, by rw [Action.value?, hrun], by rwa [Action.leaves, hrun]⟩
  · exact .inr ⟨by rw [Action.value?, hrun], e, by rwa [Action.leaves, hrun]⟩

/-- What holds at first, and after each attempt if before, holds after all attempts. -/
@[elab_as_elim]
theorem Retried.rule {motive : List (Option α) → σ → Prop}
    (h : Retried x rearms begun answers s) (hbegun : motive [] begun)
    (hagain : ∀ answers s armed, motive answers s → rearms s armed → x.Ensures armed
      (fun a t => motive (answers ++ [some a]) t) (fun _ t => motive (answers ++ [none]) t)) :
    motive answers s := by
  induction h with
  | begun => exact hbegun
  | again h hrearms ih =>
      rcases (hagain _ _ _ ih hrearms).value?_leaves with ⟨a, hvalue, hP⟩ | ⟨hvalue, e, hP⟩
      · rwa [hvalue]
      · rwa [hvalue]

end

namespace Medium

/-- The storage is as it was, but for the failures armed. -/
structure Rearmed (before after : Medium Memory) : Prop where
  /-- Streams publish as before. -/
  publishing_eq : after.storage.publishing = before.storage.publishing
  /-- The files are as before. -/
  files_eq : after.storage.files = before.storage.files

theorem rearmed_cleared (medium : Medium Memory) : Rearmed medium medium.cleared := ⟨rfl, rfl⟩

theorem armed_cleared (medium : Medium Memory) : medium.cleared.armed = 0 := rfl

end Medium

open PathMap (Moving)
open Medium (Rearmed)

/-! ### Committing again -/

namespace OpenLog

variable {journal : Journal} {log : OpenLog Stream} {next : UInt64} {closed : PathMap Bytes}
  {medium : Medium Memory} {s armed : OpenLog Stream × Medium Memory}

/-- What may be armed before a log is committed again: all but a failure to close its stream. -/
structure Recommits (s armed : OpenLog Stream × Medium Memory) : Prop where
  /-- The log is as it was. -/
  log_eq : armed.1 = s.1
  /-- So is the storage. -/
  rearmed : Rearmed s.2 armed.2
  /-- The stream can be closed. -/
  willing : ∀ fault ∈ armed.2.callFaults, fault.call ≠ .close

theorem recommits_cleared (s : OpenLog Stream × Medium Memory) :
    Recommits s (s.1, s.2.cleared) :=
  ⟨rfl, Medium.rearmed_cleared s.2, fun _ h => (by cases h)⟩

/-- With nothing armed, committing the log answers so and leaves these files. -/
def Commits (journal : Journal) (next : UInt64) (s : OpenLog Stream × Medium Memory)
    (answer : Option Segment) (files : PathMap Bytes) : Prop :=
  ∃ t, commit journal next (s.1, s.2.cleared) = .ok answer t ∧ t.2.storage.files = files

/-- How far the attempts to commit a log, whose files once closed are `closed`, have come. -/
structure Underway (segment : Segment) (target : String) (closed : PathMap Bytes)
    (s : OpenLog Stream × Medium Memory) : Prop where
  /-- The log is the one that was there at first. -/
  segment_eq : s.1.segment = segment
  /-- Its file is on the way. -/
  moving : Moving segment.location target closed (s.1.closedFiles s.2.storage)

variable {segment : Segment}

theorem underway_of_files {t : OpenLog Stream × Medium Memory} {target : String}
    (hlog : t.1 = { s.1 with stream := none }) (hsegment : s.1.segment = segment)
    (hmoving : Moving segment.location target closed t.2.storage.files) :
    Underway segment target closed t := by
  refine ⟨by rw [hlog, hsegment], ?_⟩
  rwa [closedFiles_of_none (by rw [hlog])]

/-- A further attempt ends where a first one would have ended, or leaves the file on the way. -/
theorem Underway.ensures_commit
    (h : Underway segment (journal.log segment.start next).location closed s)
    (hrearms : Recommits s armed) (hlt : segment.start < next)
    (hne : segment.location ≠ (journal.log segment.start next).location) :
    (commit journal next).Ensures armed
      (fun answer t => Underway segment (journal.log segment.start next).location closed t ∧
        t.1.stream = none ∧
        answer = Journal.completedIn closed segment (journal.log segment.start next) ∧
        t.2.storage.files = closed.moved segment.location
          (journal.log segment.start next).location)
      (fun _ t => Underway segment (journal.log segment.start next).location closed t ∧
        t.1.stream = none ∧ Fired armed.2 t.2 ∧
        (s.1.closedFiles s.2.storage = closed.moved segment.location
            (journal.log segment.start next).location →
          t.2.storage.files = closed.moved segment.location
            (journal.log segment.start next).location)) := by
  obtain ⟨log, medium⟩ := armed
  obtain ⟨hlog, hrearmed, hwilling⟩ := hrearms
  obtain ⟨hsegment, hmoving⟩ := h
  dsimp only at hlog hrearmed hwilling
  subst hlog hsegment
  have hclosed := closedFiles_congr s.1 hrearmed.files_eq hrearmed.publishing_eq
  refine (ensures_commit_moved hwilling hlt hne).mono ?_ ?_
  · rintro _ t ⟨ht, -, rfl, hfiles⟩
    rw [hclosed, location, hmoving.moved_eq hne] at hfiles
    refine ⟨underway_of_files ht rfl (hfiles ▸ .arrived), by rw [ht], ?_, hfiles⟩
    rw [Journal.completedIn, hclosed, hmoving.eitherPresent_eq hne, Journal.completedIn]
  · rintro e t ⟨ht, hfired, hmoving'⟩
    rw [hclosed] at hmoving'
    refine ⟨underway_of_files ht rfl (hmoving.trans hmoving' hne), by rw [ht], hfired, ?_⟩
    intro hdone
    rw [hdone] at hmoving'
    exact hmoving'.eq_of_moved hne

theorem Underway.commits
    (h : Underway segment (journal.log segment.start next).location closed s)
    (hlt : segment.start < next)
    (hne : segment.location ≠ (journal.log segment.start next).location) :
    Commits journal next s
      (Journal.completedIn closed segment (journal.log segment.start next))
      (closed.moved segment.location (journal.log segment.start next).location) := by
  obtain ⟨_, t, hrun, -, -, rfl, hfiles⟩ :=
    (h.ensures_commit (recommits_cleared s) hlt hne).exists_ok
      fun _ _ hfired => hfired.2.2.1.elim (Medium.armed_cleared s.2)
  exact ⟨t, hrun, hfiles⟩

/-- What has come of the attempts so far. -/
theorem Underway.retried {answers : List (Option (Option Segment))}
    {begun : OpenLog Stream × Medium Memory}
    (h : Underway segment (journal.log segment.start next).location closed begun)
    (hlt : segment.start < next)
    (hne : segment.location ≠ (journal.log segment.start next).location)
    (hretried : Retried (commit journal next) Recommits begun answers s) :
    Underway segment (journal.log segment.start next).location closed s ∧
      (answers ≠ [] → s.1.stream = none) ∧
      ∀ value, some value ∈ answers →
        value = Journal.completedIn closed segment (journal.log segment.start next) ∧
        s.1.closedFiles s.2.storage = closed.moved segment.location
          (journal.log segment.start next).location := by
  refine Retried.rule hretried ⟨h, fun hnil => absurd rfl hnil, fun _ hnone => (by cases hnone)⟩ ?_
  rintro answers s armed ⟨hway, -, hdone⟩ hrearms
  refine (hway.ensures_commit hrearms hlt hne).mono ?_ ?_
  · rintro answer t ⟨hway', hstream, hanswer, hfiles⟩
    have hend := (closedFiles_of_none hstream t.2.storage).trans hfiles
    refine ⟨hway', fun _ => hstream, ?_⟩
    intro value hvalue
    rcases List.mem_append.1 hvalue with hvalue | hvalue
    · exact ⟨(hdone value hvalue).1, hend⟩
    · cases List.mem_singleton.1 hvalue
      exact ⟨hanswer, hend⟩
  · rintro e t ⟨hway', hstream, -, hstays⟩
    refine ⟨hway', fun _ => hstream, ?_⟩
    intro value hvalue
    rcases List.mem_append.1 hvalue with hvalue | hvalue
    · obtain ⟨heq, hend⟩ := hdone value hvalue
      exact ⟨heq, (closedFiles_of_none hstream t.2.storage).trans (hstays hend)⟩
    · cases List.mem_singleton.1 hvalue

end OpenLog

namespace Journal

variable {journal : Journal} {log : Segment} {contents : Bytes} {last : Option UInt64}
  {found files : PathMap Bytes} {medium armed : Medium Memory}

/-! ### Sealing again -/

/-- What may be armed before a log is sealed again: failures of any calls. -/
structure Reseals (medium armed : Medium Memory) : Prop where
  /-- The storage is as it was. -/
  rearmed : Rearmed medium armed
  /-- The calls do nothing worse than fail. -/
  honest : armed.Honest

theorem reseals_cleared (medium : Medium Memory) : Reseals medium medium.cleared :=
  ⟨Medium.rearmed_cleared medium, fun _ h => (by cases h)⟩

/-- With nothing armed, finding the frontier and sealing there answers so and leaves these files. -/
def Seals (journal : Journal) (medium : Medium Memory) (answer : Option Segment)
    (files : PathMap Bytes) : Prop :=
  ∃ after, journal.reseal medium.cleared = .ok answer after ∧ after.storage.files = files

/-- The path of a log that is complete with its last entry. -/
def pathBehind (journal : Journal) (log : Segment) (last : UInt64) : String :=
  (journal.log log.start (last + 1)).location

/-- The log that sealing another completes, given that one's last entry, if it has one. -/
def sealedLog (journal : Journal) (log : Segment) (last : Option UInt64) : Option Segment :=
  last.map fun number => journal.log log.start (number + 1)

/-- The files once a log is sealed, given its last entry. -/
def sealedFiles (journal : Journal) (log : Segment) (found : PathMap Bytes) :
    Option UInt64 → PathMap Bytes
  | none => found.erase log.location
  | some last => found.moved log.location (journal.pathBehind log last)

/-- How far the attempts to seal a log have come, given its last entry. -/
def Resealing (journal : Journal) (log : Segment) (found files : PathMap Bytes) :
    Option UInt64 → Prop
  | none => files = found ∨ files = found.erase log.location
  | some last => Moving log.location (journal.pathBehind log last) found files

/-- The current log can be sealed: where it has a last entry, the number behind it is a stop. -/
structure Sealable (journal : Journal) (log : Segment) (found : PathMap Bytes)
    (last : Option UInt64) : Prop where
  /-- It is the current log. -/
  opens : journal.Opens found (some log)
  /-- Its last entry. -/
  last_eq : ∃ contents, found.get? log.location = some contents ∧
    SegmentReader.greatest? { segment := log, rest := contents } = last
  /-- The number behind it is one. -/
  add_one_ne_zero : ∀ number ∈ last, number + 1 ≠ 0
  /-- It does not say that a log is incomplete. -/
  add_one_ne_unknownStop : ∀ number ∈ last, number + 1 ≠ unknownStop

theorem Sealable.contains_eq (h : journal.Sealable log found last) :
    found.contains log.location = true := by
  obtain ⟨contents, hget, -⟩ := h.last_eq
  exact PathMap.contains_iff.2 ⟨contents, hget⟩

theorem Sealable.location_ne {number : UInt64} (h : journal.Sealable log found (some number)) :
    log.location ≠ journal.pathBehind log number :=
  h.opens.location_ne (h.add_one_ne_unknownStop number rfl)

/-- A further attempt ends where a first one would have ended, or leaves the file on the way.  It
answers with the completed log as long as there is something to complete. -/
theorem Sealable.ensures_reseal (h : journal.Sealable log found last)
    (hway : journal.Resealing log found medium.storage.files last)
    (hrearms : Reseals medium armed) :
    journal.reseal.Ensures armed
      (fun answer after => journal.Resealing log found after.storage.files last ∧
        answer = (if medium.storage.files.contains log.location then journal.sealedLog log last
          else none) ∧
        after.storage.files = journal.sealedFiles log found last)
      (fun _ after => journal.Resealing log found after.storage.files last ∧ Fired armed after ∧
        (medium.storage.files = journal.sealedFiles log found last →
          after.storage.files = journal.sealedFiles log found last)) := by
  obtain ⟨contents, hget, hlast⟩ := h.last_eq
  obtain ⟨⟨-, hfiles⟩, hhonest⟩ := hrearms
  rw [← hfiles] at hway ⊢
  cases last with
  | none =>
      refine (ensures_reseal_empty h.opens hget hlast hway hhonest).mono ?_ ?_
      · rintro _ after ⟨-, rfl, herased⟩
        exact ⟨.inr herased, (ite_self none).symm, herased⟩
      · rintro e after ⟨hfired, hsame⟩
        rw [hsame]
        exact ⟨hway, hfired, id⟩
  | some number =>
      have hne := h.location_ne
      refine (Journal.ensures_reseal h.opens hget hlast (h.add_one_ne_zero number rfl)
        (h.add_one_ne_unknownStop number rfl) rfl hne hway hhonest).mono ?_ ?_
      · rintro _ after ⟨-, rfl, hmoved⟩
        have hdone : after.storage.files = journal.sealedFiles log found (some number) :=
          hmoved.trans (hway.moved_eq hne)
        exact ⟨hdone ▸ .arrived, rfl, hdone⟩
      · rintro e after ⟨hfired, hmoving⟩
        refine ⟨hway.trans hmoving hne, hfired, ?_⟩
        intro hdone
        rw [hdone] at hmoving
        exact hmoving.eq_of_moved hne

theorem Sealable.seals (h : journal.Sealable log found last)
    (hway : journal.Resealing log found medium.storage.files last) :
    Seals journal medium
      (if medium.storage.files.contains log.location then journal.sealedLog log last else none)
      (journal.sealedFiles log found last) := by
  obtain ⟨_, after, hrun, -, rfl, hfiles⟩ :=
    (h.ensures_reseal hway (reseals_cleared medium)).exists_ok
      fun _ _ hfired => hfired.2.1.elim (Medium.armed_cleared medium)
  exact ⟨after, hrun, hfiles⟩

theorem resealing_self (journal : Journal) (log : Segment) (found : PathMap Bytes)
    (last : Option UInt64) : journal.Resealing log found found last := by
  cases last with
  | none => exact .inl rfl
  | some number => exact .waiting

theorem Resealing.get?_eq {path : String} (h : journal.Resealing log found files last)
    (hpath : path ≠ log.location)
    (hbehind : ∀ number ∈ last, path ≠ journal.pathBehind log number) :
    files.get? path = found.get? path := by
  cases last with
  | none =>
      rcases h with rfl | rfl
      · rfl
      · rw [PathMap.get?_erase, if_neg hpath.symm]
  | some number => exact Moving.get?_eq h hpath (hbehind number rfl)

/-- What has come of the attempts so far. -/
theorem Sealable.retried {answers : List (Option (Option Segment))} {after : Medium Memory}
    (h : journal.Sealable log found last) (hfound : medium.storage.files = found)
    (hretried : Retried journal.reseal Reseals medium answers after) :
    journal.Resealing log found after.storage.files last ∧
      ∀ value, some value ∈ answers →
        after.storage.files = journal.sealedFiles log found last := by
  refine Retried.rule hretried ⟨hfound ▸ journal.resealing_self log _ last,
    fun _ hnone => (by cases hnone)⟩ ?_
  rintro answers s armed ⟨hway, hdone⟩ hrearms
  refine (h.ensures_reseal hway hrearms).mono ?_ ?_
  · rintro answer t ⟨hway', -, hfiles⟩
    exact ⟨hway', fun _ _ => hfiles⟩
  · rintro e t ⟨hway', -, hstays⟩
    refine ⟨hway', ?_⟩
    intro value hvalue
    rcases List.mem_append.1 hvalue with hvalue | hvalue
    · exact hstays (hdone value hvalue)
    · cases List.mem_singleton.1 hvalue

/-- **Attempts that are made again.**  Of a log that is committed at a number behind its start, and
of one that is sealed at the frontier, and however the attempts so far have failed: what the log's
file held is at the old path or at the new one, and no other file is touched.  An attempt in which
nothing fails answers with the completed log and moves the file there, or removes it if no entry is
to be sealed; and once an attempt succeeded, these are the files, and stay so.  A further commit
answers as before, and there is nothing more to seal. -/
theorem attempts_settle (journal : Journal) :
    (∀ (log : OpenLog Stream) (next : UInt64) (medium : Medium Memory)
        (answers : List (Option (Option Segment))) (s : OpenLog Stream × Medium Memory),
      journal.Places log.segment → log.segment.stop = unknownStop →
      (∀ stream ∈ log.stream, stream.path = log.location) →
      log.segment.start < next → next < unknownStop →
      Retried (OpenLog.commit journal next) OpenLog.Recommits (log, medium) answers s →
      answers ≠ [] →
      let completed := journal.log log.segment.start next
      let closed := log.closedFiles medium.storage
      let answer := completedIn closed log.segment completed
      let files := closed.moved log.location completed.location
      OpenLog.Commits journal next (log, medium) answer files ∧
        (∀ contents, closed.get? log.location = some contents →
          s.2.storage.files.get? log.location = some contents ∨
            s.2.storage.files.get? completed.location = some contents) ∧
        (∀ path, path ≠ log.location → path ≠ completed.location →
          s.2.storage.files.get? path = medium.storage.files.get? path) ∧
        (∀ value, some value ∈ answers → value = answer ∧ s.2.storage.files = files) ∧
        OpenLog.Commits journal next s answer files) ∧
    (∀ (log : Segment) (last : Option UInt64) (medium : Medium Memory)
        (answers : List (Option (Option Segment))) (after : Medium Memory),
      journal.Sealable log medium.storage.files last →
      Retried journal.reseal Reseals medium answers after →
      let files := journal.sealedFiles log medium.storage.files last
      journal.Seals medium (journal.sealedLog log last) files ∧
        (∀ number ∈ last, ∀ contents, medium.storage.files.get? log.location = some contents →
          after.storage.files.get? log.location = some contents ∨
            after.storage.files.get? (journal.pathBehind log number) = some contents) ∧
        (∀ path, path ≠ log.location → (∀ number ∈ last, path ≠ journal.pathBehind log number) →
          after.storage.files.get? path = medium.storage.files.get? path) ∧
        (∀ value, some value ∈ answers → after.storage.files = files) ∧
        journal.Seals after
          (if after.storage.files.contains log.location then journal.sealedLog log last else none)
          files) := by
  constructor
  · intro log next medium answers s hplaces hstop hpath hlt hnext hretried hattempted completed
      closed answer files
    have hne : log.segment.location ≠ completed.location :=
      fun heq => UInt64.ne_of_lt hnext ((hplaces.stop_of_location heq).symm.trans hstop)
    have hbegun : OpenLog.Underway log.segment completed.location closed (log, medium) :=
      ⟨rfl, .waiting⟩
    obtain ⟨hway, hstream, hdone⟩ := hbegun.retried hlt hne hretried
    have hfiles := OpenLog.closedFiles_of_none (hstream hattempted) s.2.storage
    have hmoving := hway.moving
    rw [hfiles] at hmoving hdone
    refine ⟨hbegun.commits hlt hne, fun contents hget => hmoving.intact hne hget, ?_, hdone,
      hway.commits hlt hne⟩
    intro path hsource htarget
    rw [hmoving.get?_eq hsource htarget, OpenLog.get?_closedFiles hpath hsource]
  · intro log last medium answers after hsealable hretried files
    obtain ⟨hway, hdone⟩ := hsealable.retried rfl hretried
    have hseals := hsealable.seals (journal.resealing_self log _ last)
    rw [if_pos hsealable.contains_eq] at hseals
    refine ⟨hseals, ?_, fun path => hway.get?_eq, hdone, hsealable.seals hway⟩
    rintro number rfl contents hget
    exact Moving.intact hway hsealable.location_ne hget

/-- For example, a log in whose way another stands: the first attempt removes that one and fails to
rename, the second ends as one alone would have. -/
theorem attempts_settle_renaming :
    let journal := Journal.rooted "journal" {}
    let segment := journal.log 0 unknownStop
    let completed := journal.log 0 2
    let files := (PathMap.empty.insert segment.location [1]).insert completed.location [2]
    let medium : Medium Memory := { storage := { publishing := .onFlush, files } }
    let final := PathMap.empty.insert completed.location [1]
    ∃ s, Retried (OpenLog.commit journal 2) OpenLog.Recommits
        (OpenLog.adopt segment, medium) [none, some (some completed)] s ∧
      OpenLog.Commits journal 2 (OpenLog.adopt segment, medium) (some completed) final ∧
      s.2.storage.files = final ∧ OpenLog.Commits journal 2 s (some completed) final := by
  intro journal segment completed files medium final
  let log : OpenLog Stream := OpenLog.adopt segment
  let failing : Medium Memory := { medium with
    storage := { medium.storage with faults := [.rename] } }
  let failed := (OpenLog.commit journal 2).leaves (log, failing)
  have hanswers : (OpenLog.commit journal 2).value? (log, failing) = none ∧
      (OpenLog.commit journal 2).value? (failed.1, failed.2.cleared) =
        some (some completed) := by
    decide +kernel
  obtain ⟨hfirst, hsecond⟩ := hanswers
  have hfailed : Retried (OpenLog.commit journal 2) OpenLog.Recommits (log, medium) [none] failed :=
    hfirst ▸ Retried.begun.again ⟨rfl, ⟨rfl, rfl⟩, fun _ h => (by cases h)⟩
  have hretried := hfailed.again (OpenLog.recommits_cleared failed)
  rw [hsecond] at hretried
  have hne : segment.location ≠ completed.location := by decide +kernel
  have hmoved : files.moved segment.location completed.location = final := by
    have hget : files.get? segment.location = some [1] := by simp [files, hne.symm]
    rw [PathMap.moved_of_some hget]
    refine PathMap.ext fun path => ?_
    simp only [files, final, PathMap.get?_insert, PathMap.get?_erase, PathMap.get?_empty]
    split
    · rfl
    · split <;> rfl
  obtain ⟨hcommits, -, -, hdone, hcommits'⟩ :=
    (attempts_settle journal).1 log 2 medium _ _ (journal.places_log (by decide) (by decide)) rfl
      (fun _ h => (by cases h)) (by decide) (by decide) hretried (by simp)
  obtain ⟨hanswer, hfinal⟩ := hdone (some completed) (by simp)
  rw [← hanswer] at hcommits hcommits'
  exact ⟨_, hretried, hmoved ▸ hcommits, hfinal.trans hmoved, hmoved ▸ hcommits'⟩

end Journal

end SegmentedJournal
