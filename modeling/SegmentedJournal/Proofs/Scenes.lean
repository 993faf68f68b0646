import SegmentedJournal.Proofs.Collecting
import SegmentedJournal.Proofs.Survival
/-!
# Collecting garbage beside a writer

A scene is a course of a writer beside which checkpoints are placed and passes of the collector are
under way.  A pass takes a snapshot and decides what to remove; then each removal is a step of its
own, and anything may happen in between (`Scene.step`), so a pass may act on a snapshot that is long
out of date.  If nothing happens in between it is the pass that the collector makes
(`Scene.run_pass`).

Whatever the order, the writer stays in good standing (`Scene.Kept.step`, `Scene.Kept.run`).  So no
operation of it fails fatally, it can be closed once nothing fails any more, and from any number on
that no checkpoint reaches past, the journal holds what was acknowledged
(`Journal.Intact.close_beside_collector`).  Again the number behind the last entry is below
`unknownStop`.  A reset that seals a log there removes it, and the next one misses its entries
(`Journal.Intact.reset_fatal_at_last`).
-/

namespace SegmentedJournal

open Memory (Stream)

/-- What can happen to a journal beside which garbage is collected. -/
inductive Event where
  /-- The writer or its medium makes a move. -/
  | move (act : Move)
  /-- A checkpoint of everything before `stop` is placed. -/
  | place (stop : UInt64) (image : Bytes)
  /-- A pass begins: it takes a snapshot and decides what to remove. -/
  | survey
  /-- A pass under way removes the next of its segments. -/
  | remove (pass : Nat)

/-- Moves are fair, and the writer is not closed. -/
def Event.Fair (publishing : Publishing) : Event → Prop
  | .move act => act.Fair publishing ∧ act ≠ .close
  | _ => True

instance (publishing : Publishing) : (event : Event) → Decidable (event.Fair publishing)
  | .move act => inferInstanceAs (Decidable (act.Fair publishing ∧ act ≠ .close))
  | .place _ _ | .survey | .remove _ => inferInstanceAs (Decidable True)

/-- A course of a writer, and what goes on beside it. -/
structure Scene where
  /-- The course of the writer. -/
  course : Course
  /-- What each pass has still to remove, first begun first. -/
  passes : List (List Segment) := []
  /-- The greatest stop of a checkpoint that was placed. -/
  reach : Nat := 0

namespace Scene

/-- The scene once a checkpoint was placed; it is only if the writer has given out every number
before its stop. -/
def place (scene : Scene) (stop : UInt64) (image : Bytes) : Scene :=
  let medium := scene.course.medium
  let path := (scene.course.writer.journal.checkpoint 0 stop).location
  if stop ≤ scene.course.writer.next then
    let medium := { medium with storage := Storage.put path image medium.storage }
    { scene with course := { scene.course with medium }, reach := max scene.reach stop.toNat }
  else scene

/-- The scene once a pass has begun, unless its snapshot failed. -/
def survey (scene : Scene) : Scene :=
  match scene.course.writer.journal.plan scene.course.medium with
  | .ok segments medium =>
    { scene with course := { scene.course with medium }, passes := scene.passes ++ [segments] }
  | .error _ medium => { scene with course := { scene.course with medium } }

/-- The scene once a pass has removed the next of its segments; a removal that fails ends it. -/
def remove (scene : Scene) (pass : Nat) : Scene :=
  match scene.passes[pass]? with
  | some (segment :: segments) =>
    match Journal.remove segment.location scene.course.medium with
    | .ok _ medium =>
      { scene with
        course := { scene.course with medium }
        passes := scene.passes.set pass segments }
    | .error _ medium =>
      { scene with course := { scene.course with medium }, passes := scene.passes.set pass [] }
  | _ => scene

/-- What an event makes of a scene. -/
def step (scene : Scene) : Event → Scene
  | .move act => { scene with course := scene.course.step act }
  | .place stop image => scene.place stop image
  | .survey => scene.survey
  | .remove pass => scene.remove pass

/-- What events make of a scene, one after the other. -/
def run (scene : Scene) (events : List Event) : Scene :=
  events.foldl step scene

/-- The scene of a writer that has just been started. -/
def begun (writer : Writer Stream) (medium : Medium Memory) : Scene :=
  { course := .begun writer medium }

@[simp] theorem run_nil (scene : Scene) : scene.run [] = scene := rfl

@[simp] theorem run_cons (scene : Scene) (event : Event) (events : List Event) :
    scene.run (event :: events) = (scene.step event).run events := rfl

theorem acknowledges (publishing : Publishing) :
    Acknowledges step (fun scene => scene.course.acked) (Event.Fair publishing) := by
  intro scene event
  cases event with
  | move act =>
      refine (Course.acknowledges publishing scene.course act).imp_right ?_
      rintro ⟨entry, hfits, heq⟩
      exact ⟨entry, fun hfair => hfits hfair.1, heq⟩
  | place stop image =>
      unfold step place
      dsimp only
      split <;> exact .inl rfl
  | survey =>
      unfold step survey
      dsimp only
      split <;> exact .inl rfl
  | remove pass =>
      unfold step remove
      dsimp only
      split
      · split <;> exact .inl rfl
      · exact .inl rfl

theorem acked_run (scene : Scene) (events : List Event) :
    scene.course.acked <+: (scene.run events).course.acked :=
  (acknowledges .onFlush).grows scene events

/-- No more entries are acknowledged than there are events. -/
theorem length_acked_run_le (scene : Scene) (events : List Event) :
    (scene.run events).course.acked.length ≤ scene.course.acked.length + events.length :=
  (acknowledges .onFlush).length_le scene events

/-! ### A pass that nothing interrupts -/

variable {scene : Scene} {pass : Nat} {segment : Segment} {segments : List Segment}

/-- A pass with nothing left to remove does nothing. -/
theorem run_of_done (count : Nat) (h : scene.passes[pass]? = some []) :
    scene.run (List.replicate count (.remove pass)) = scene := by
  induction count with
  | zero => rfl
  | succ count ih =>
      have hremove : scene.remove pass = scene := by
        unfold remove
        rw [h]
      rw [List.replicate_succ, run_cons, step, hremove, ih]

/-- Removals one after the other leave what they leave together. -/
theorem medium_run_of_pass (h : scene.passes[pass]? = some segments) :
    (scene.run (List.replicate segments.length (.remove pass))).course.medium =
      (Journal.removeAll segments).leaves scene.course.medium := by
  -- A removal that fails ends both, and the removals that are left do nothing then.
  induction segments generalizing scene with
  | nil => rfl
  | cons segment segments ih =>
      obtain ⟨hlt, -⟩ := List.getElem?_eq_some_iff.1 h
      rw [List.length_cons, List.replicate_succ, run_cons, Journal.removeAll, Action.leaves_bind,
        step, remove, h]
      dsimp only
      cases Journal.remove segment.location scene.course.medium with
      | ok removed medium =>
          dsimp only
          rw [ih (List.getElem?_set_self hlt), Action.leaves_bind, Action.leaves]
          dsimp only
          cases Journal.removeAll segments medium <;> rfl
      | error e medium =>
          rw [run_of_done _ (List.getElem?_set_self hlt)]

/-- **A pass**: what begins a pass and all its removals, with nothing in between, leave what the
collector's pass leaves. -/
theorem run_pass (scene : Scene) :
    ∃ count, (scene.run (.survey ::
        List.replicate count (.remove scene.passes.length))).course.medium =
      scene.course.writer.journal.collect.leaves scene.course.medium := by
  rw [Journal.leaves_collect, Action.leaves_bind]
  cases heq : scene.course.writer.journal.plan scene.course.medium with
  | ok segments medium =>
      have hsurvey : scene.survey = { scene with
          course := { scene.course with medium }, passes := scene.passes ++ [segments] } := by
        rw [survey, heq]
      have hpass : scene.survey.passes[scene.passes.length]? = some segments := by
        rw [hsurvey]
        exact List.getElem?_concat_length
      refine ⟨segments.length, ?_⟩
      rw [run_cons, step, medium_run_of_pass hpass, hsurvey]
  | error e medium =>
      refine ⟨0, ?_⟩
      rw [List.replicate_zero, run_cons, run_nil, step, survey, heq]

/-! ### Scenes in good standing -/

variable {account account' : Account} {s : Nat} {publishing : Publishing} {events : List Event}

/-- The writer is open and in good standing, checkpoints reach as far as the account says, and each
pass removes only what is redundant. -/
structure Kept (account : Account) (s : Nat) (publishing : Publishing) (scene : Scene) : Prop where
  /-- The writer is in good standing. -/
  course : scene.course.Kept account s publishing
  /-- It is open. -/
  opened : scene.course.writer.closed = false
  /-- Checkpoints reach so far. -/
  reach_eq : account.reach = scene.reach
  /-- Each pass removes only what is redundant. -/
  redundant : ∀ segments ∈ scene.passes, ∀ segment ∈ segments, account.Redundant segment

/-- What happens beside the writer keeps the scene in good standing. -/
theorem Kept.follow {medium : Medium Memory} {passes : List (List Segment)}
    (h : scene.Kept account s publishing)
    (hfollows : account.Follows account' scene.course.medium.storage.files medium.storage.files)
    (hpublishing : medium.storage.publishing = scene.course.medium.storage.publishing)
    (htame : medium.Tame) (hreach : account'.reach ≤ s + scene.course.acked.length)
    (hpasses : ∀ segments ∈ passes, ∀ segment ∈ segments, account'.Redundant segment) :
    Kept account' s publishing
      { scene with course := { scene.course with medium }, passes, reach := account'.reach } :=
  ⟨h.course.follow hfollows hpublishing htame hreach, h.opened, rfl, hpasses⟩

theorem Kept.reach_le (h : scene.Kept account s publishing) :
    account.reach ≤ s + scene.course.acked.length :=
  h.course.standing.serves.reach_le

/-- So does what leaves the files alone. -/
theorem Kept.quieter {medium : Medium Memory} {passes : List (List Segment)}
    (h : scene.Kept account s publishing) (hquieter : Medium.Quieter scene.course.medium medium)
    (hfiles : medium.storage.files = scene.course.medium.storage.files)
    (hpasses : ∀ segments ∈ passes, ∀ segment ∈ segments, account.Redundant segment) :
    Kept account s publishing { scene with course := { scene.course with medium }, passes } := by
  have hfollows : account.Follows account scene.course.medium.storage.files
      medium.storage.files := hfiles ▸ .refl account _
  have hkept := h.follow hfollows hquieter.publishing_eq
    (hquieter.tame h.course.standing.serves.tame) h.reach_le hpasses
  rwa [h.reach_eq] at hkept

theorem Kept.step_move {act : Move} (h : scene.Kept account s publishing)
    (hfair : act.Fair publishing) (hclose : act ≠ .close)
    (hcarries : account.ledger.Carries s (scene.course.step act).acked)
    (hbound : s + (scene.course.step act).acked.length < unknownStop.toNat) :
    (scene.step (.move act)).Kept account s publishing := by
  obtain ⟨hkept, hclosed⟩ := h.course.step hfair hcarries hbound
  exact ⟨hkept, (hclosed hclose).trans h.opened, h.reach_eq, h.redundant⟩

theorem Kept.place (h : scene.Kept account s publishing) (stop : UInt64) (image : Bytes) :
    ∃ account', account.Akin account' ∧ (scene.place stop image).Kept account' s publishing := by
  have hserves := h.course.standing.serves
  unfold Scene.place
  dsimp only
  split
  · next hle =>
    have hstop : stop.toNat ≤ s + scene.course.acked.length := by
      rw [hserves.next_eq, UInt64.le_iff_toNat_le,
        Account.toNat_ofNat_of_bound hserves.bound] at hle
      exact hle
    have hbound : stop ≤ unknownStop :=
      UInt64.le_iff_toNat_le.2 (Nat.le_of_lt (Nat.lt_of_le_of_lt hstop hserves.bound))
    obtain ⟨current, a, m, hdurable⟩ := h.course.standing.exists_durable
    obtain ⟨account', hakin, hreach, hfollows⟩ := hdurable.stands.follows_place hbound image
    have hmax : account'.reach ≤ s + scene.course.acked.length := by
      rw [hreach]
      exact Nat.max_le.2 ⟨h.reach_le, hstop⟩
    refine ⟨account', hakin, ?_⟩
    rw [← h.reach_eq, ← hreach, hserves.journal_eq]
    refine h.follow hfollows rfl hserves.tame hmax ?_
    intro segments hsegments segment hsegment
    exact (h.redundant segments hsegments segment hsegment).mono hakin.journal_eq
      (hreach ▸ Nat.le_max_left ..)
  · exact ⟨account, .refl account, h⟩

theorem Kept.survey (h : scene.Kept account s publishing) :
    scene.survey.Kept account s publishing := by
  have hserves := h.course.standing.serves
  obtain ⟨current, a, m, ⟨complete, harchive⟩, -, -, -⟩ := h.course.standing.exists_durable
  unfold Scene.survey
  rw [hserves.journal_eq]
  rcases (harchive.ensures_plan hserves.tame).ok_or_error with
    ⟨segments, medium, heq, hsegments, -, hkeeps⟩ | ⟨e, medium, heq, hfoiled⟩
  · rw [heq]
    refine h.quieter hkeeps.toQuieter hkeeps.files_eq ?_
    intro others hothers
    rcases List.mem_append.1 hothers with hold | hnew
    · exact h.redundant others hold
    · rw [List.mem_singleton.1 hnew]
      exact hsegments
  · rw [heq]
    exact h.quieter hfoiled.toKeeps.toQuieter hfoiled.toKeeps.files_eq h.redundant

theorem Kept.remove (h : scene.Kept account s publishing) (pass : Nat) :
    ∃ account', account.Akin account' ∧ (scene.remove pass).Kept account' s publishing := by
  have hserves := h.course.standing.serves
  unfold Scene.remove
  split
  · next segment segments hpass =>
    have hthose := h.redundant _ (List.mem_of_getElem? hpass)
    have hsegment := hthose segment List.mem_cons_self
    have hset (rest : List Segment) (hrest : ∀ other ∈ rest, account.Redundant other) :
        ∀ others ∈ scene.passes.set pass rest, ∀ other ∈ others, account.Redundant other := by
      intro others hothers
      rcases List.mem_or_eq_of_mem_set hothers with hold | rfl
      · exact h.redundant others hold
      · exact hrest
    rcases (hsegment.ensures_remove scene.course.medium).ok_or_error with
      ⟨removed, medium, heq, hquieter, account', hakin, hreach, hfollows⟩ |
        ⟨e, medium, heq, hfoiled⟩
    · rw [heq]
      have hrest := hset segments fun other hother => hthose other (List.mem_cons_of_mem _ hother)
      refine ⟨account', hakin, ?_⟩
      dsimp only
      rw [← h.reach_eq, ← hreach]
      refine h.follow hfollows hquieter.publishing_eq (hquieter.tame hserves.tame)
        (hreach ▸ h.reach_le) ?_
      intro others hothers other hother
      exact (hrest others hothers other hother).mono hakin.journal_eq (Nat.le_of_eq hreach.symm)
    · rw [heq]
      exact ⟨account, .refl account, h.quieter hfoiled.toKeeps.toQuieter hfoiled.toKeeps.files_eq
        (hset [] fun _ hnone => (by cases hnone))⟩
  · exact ⟨account, .refl account, h⟩

/-- **Step**: whatever happens keeps a scene in good standing. -/
theorem Kept.step {event : Event} (h : scene.Kept account s publishing)
    (hfair : event.Fair publishing)
    (hcarries : account.ledger.Carries s (scene.step event).course.acked)
    (hbound : s + (scene.step event).course.acked.length < unknownStop.toNat) :
    ∃ account', account.Akin account' ∧ (scene.step event).Kept account' s publishing := by
  cases event with
  | move act => exact ⟨account, .refl account, h.step_move hfair.1 hfair.2 hcarries hbound⟩
  | place stop image => exact h.place stop image
  | survey => exact ⟨account, .refl account, h.survey⟩
  | remove pass => exact h.remove pass

/-- **Run**: whatever happens in whatever order keeps a scene in good standing. -/
theorem Kept.run (h : scene.Kept account s publishing)
    (hfair : ∀ event ∈ events, event.Fair publishing)
    (hcarries : account.ledger.Carries s (scene.run events).course.acked)
    (hbound : s + (scene.run events).course.acked.length < unknownStop.toNat) :
    ∃ account', account.Akin account' ∧ (scene.run events).Kept account' s publishing := by
  induction events generalizing scene account with
  | nil => exact ⟨account, .refl account, h⟩
  | cons event events ih =>
      rw [run_cons] at *
      have hgrows := acked_run (scene.step event) events
      have hlength := hgrows.length_le
      obtain ⟨middle, hakin, hstep⟩ := h.step (hfair event List.mem_cons_self)
        (hcarries.of_prefix hgrows) (by omega)
      obtain ⟨account', hakin', hrun⟩ := ih hstep
        (fun other hother => hfair other (List.mem_cons_of_mem _ hother))
        (hakin.ledger_eq ▸ hcarries) hbound
      exact ⟨account', hakin.trans hakin', hrun⟩

end Scene

namespace Journal.Intact

variable {journal : Journal} {ledger : Ledger} {complete : List Segment}
  {current : Option Segment} {s : UInt64} {medium : Medium Memory}

/-- **Collecting costs nothing**: whatever a writer is asked, whatever fails, whichever checkpoints
are placed and whichever passes remove what they once found redundant, in any order, if the number
behind the last entry is below `unknownStop`, no operation of the writer fails fatally; once nothing
fails any more it can be closed; and from any number on, where the writer started or behind it, that
no checkpoint reaches past, the journal then holds exactly the entries that were acknowledged. -/
theorem close_beside_collector
    (hintact : journal.Intact ledger s.toNat medium.storage.files complete current s.toNat)
    (hfits : ledger.Fits) (hvalid : journal.config.validate = .ok ())
    (hs : s.toNat < unknownStop.toNat) (hquiet : medium.armed = 0) :
    ∃ writer started, Writer.start journal s medium = .ok writer started ∧
      ∀ events : List Event, (∀ event ∈ events, event.Fair medium.storage.publishing) →
        let scene := (Scene.begun writer started).run events
        s.toNat + scene.course.acked.length < unknownStop.toNat →
        (∀ failure ∈ scene.course.failures, ∃ e, failure = .error e ∧ e.isFatal = false) ∧
        scene.reach ≤ scene.course.writer.next.toNat ∧
        ∃ closed ended,
          Writer.close (scene.course.writer, scene.course.medium.cleared) =
            .ok () (closed, ended) ∧
          ∀ n : UInt64, s ≤ n → scene.reach ≤ n.toNat → n ≤ scene.course.writer.next →
            ∃ after, journal.readBack n false ended =
              .ok (scene.course.acked.filter fun entry => n ≤ entry.sequence) after := by
  obtain ⟨writer, started, hstart⟩ := hintact.exists_start hfits hvalid hs hquiet
  refine ⟨writer, started, hstart, ?_⟩
  intro events hfair scene hbound
  have hnone : ∀ entry ∈ (Scene.begun writer started).course.acked, entry.Fits :=
    fun _ hentry => (by cases hentry)
  have hextended := Ledger.fits_extended (s := s.toNat) hfits
    ((Scene.acknowledges medium.storage.publishing).fits hfair hnone)
  obtain ⟨hbegun, hopen⟩ :=
    hintact.kept_begun hvalid hs (Medium.tame_of_armed hquiet) hstart hextended
  -- At first there are no checkpoints and no passes, and no account on the way has another ledger.
  have hscene : (Scene.begun writer started).Kept (journal.account _ hextended s.toNat s.toNat)
      s.toNat medium.storage.publishing :=
    ⟨hbegun, hopen, rfl, fun _ hpass => (by cases hpass)⟩
  obtain ⟨account, hakin, hkept⟩ := hscene.run hfair (Ledger.carries_extended _ _ _) hbound
  obtain ⟨closed, ended, hclose, hstands, harmed⟩ :=
    hkept.course.exists_close hkept.opened
  have hserves := hkept.course.standing.serves
  have hnext : scene.course.writer.next.toNat = s.toNat + scene.course.acked.length :=
    (congrArg UInt64.toNat hserves.next_eq).trans (Account.toNat_ofNat_of_bound hserves.bound)
  refine ⟨hkept.course.mild, ?_, closed, ended, hclose, fun n hsn hreach hn => ?_⟩
  · rw [hnext]
    exact hkept.reach_eq ▸ hserves.reach_le
  rw [UInt64.le_iff_toNat_le] at hsn hn
  rw [hnext] at hn
  have hread := hkept.course.readBack_of_stands hsn hn (hakin.base_eq ▸ hsn)
    (hakin.trusted_eq ▸ hsn) (hkept.reach_eq ▸ hreach) hstands harmed
  rwa [hakin.journal_eq] at hread

/-- For example, on storage that publishes when a stream closes: a second pass overtakes one whose
snapshot is out of date. -/
theorem close_beside_collector_overtaken :
    let journal := Journal.rooted "journal" {}
    let medium : Medium Memory := { storage := { publishing := .onClose } }
    let events : List Event := [.move (.write ⟨0, [1]⟩), .move .flush, .move (.write ⟨0, [2]⟩),
      .place 1 [], .survey, .move (.arm (.write 0 .torn)), .move (.write ⟨0, [3]⟩), .move .flush,
      .place 2 [], .survey, .remove 1, .move (.write ⟨0, [4]⟩), .remove 0, .remove 1]
    ∃ writer started, Writer.start journal 0 medium = .ok writer started ∧
      let scene := (Scene.begun writer started).run events
      ∃ closed ended,
        Writer.close (scene.course.writer, scene.course.medium.cleared) =
          .ok () (closed, ended) ∧
        ∃ after, journal.readBack (UInt64.ofNat scene.reach) false ended = .ok
          (scene.course.acked.filter fun entry => UInt64.ofNat scene.reach ≤ entry.sequence)
          after := by
  intro journal medium events
  have hfits : Ledger.Fits fun _ => [] := fun i => (by decide : 0 ≤ Frame.maxPayload)
  have hintact : journal.Intact (fun _ => []) (0 : UInt64).toNat medium.storage.files [] none
      (0 : UInt64).toNat := journal.intact_empty _ 0
  obtain ⟨writer, started, hstart, hscene⟩ :=
    close_beside_collector hintact hfits rfl (by decide) (rfl : medium.armed = 0)
  refine ⟨writer, started, hstart, ?_⟩
  have hlength := Scene.length_acked_run_le (Scene.begun writer started) events
  have hlater := hscene events (by decide)
    (Nat.lt_of_le_of_lt (Nat.add_le_add_left hlength 0) (show 0 + (0 + 14) < _ by decide))
  generalize (Scene.begun writer started).run events = scene at hlater ⊢
  obtain ⟨-, hreach, closed, ended, hclose, hread⟩ := hlater
  have hself : (UInt64.ofNat scene.reach).toNat = scene.reach :=
    UInt64.toNat_ofNat_of_lt (Nat.lt_of_le_of_lt hreach (UInt64.toNat_lt _))
  refine ⟨closed, ended, hclose, hread _ ?_ (Nat.le_of_eq hself.symm) ?_⟩
  · exact UInt64.le_iff_toNat_le.2 (Nat.zero_le _)
  · exact UInt64.le_iff_toNat_le.2 (hself.symm ▸ hreach)

/-- The bound is needed.  Here a checkpoint replaces the logs before the writer, and then a failing
flush publishes the entry with the number before `unknownStop`.  A first reset removes the log that
it means to seal; from then on every reset misses the entry before, which is fatal, and both entries
that were acknowledged are lost. -/
theorem reset_fatal_at_last :
    let journal := Journal.rooted "journal" { gcEnabled := false }
    let ledger : Ledger := fun i => [UInt8.ofNat i]
    let log := journal.log (unknownStop - 3) (unknownStop - 2)
    let files := PathMap.empty.insert log.location (ledger.frames log.start.toNat log.stop.toNat)
    let medium : Medium Memory := { storage := { publishing := .onFlush, files } }
    let events : List Event := [.place log.stop [], .survey, .remove 0,
      .move (.write ⟨0, [97]⟩), .move .flush, .move (.write ⟨0, [98]⟩),
      .move (.arm (.flush .persisted)), .move .flush, .move .flush]
    journal.Intact ledger log.stop.toNat files [log] none log.stop.toNat ∧
      ∃ course, Course.started? journal log.stop medium = some course ∧
        let scene := Scene.run { course } events
        scene.course.acked = [⟨unknownStop - 2, [97]⟩, ⟨unknownStop - 1, [98]⟩] ∧
          (∃ e after, e.isFatal = true ∧
            Writer.flush (scene.course.writer, scene.course.medium) = .error (.error e) after) ∧
          ∃ e closed ended,
            Writer.close (scene.course.writer, scene.course.medium.cleared) =
              .error (.error e) (closed, ended) ∧
            ∃ after, journal.readBack log.stop false ended = .ok [] after := by
  intro journal ledger log files medium events
  have hrun : (Course.started? journal log.stop medium).map (fun course =>
      let scene := Scene.run { course } events
      let state := (scene.course.writer, scene.course.medium.cleared)
      (scene.course.acked,
        (Writer.flush.error? (scene.course.writer, scene.course.medium)).map JournalError.isFatal,
        (Writer.close.error? state).isSome,
        (journal.readBack log.stop false).value? (Writer.close.leaves state).2)) =
      some ([⟨unknownStop - 2, [97]⟩, ⟨unknownStop - 1, [98]⟩], some true, true, some []) := by
    decide +kernel
  obtain ⟨course, hcourse, hchecked⟩ := Option.map_eq_some_iff.1 hrun
  simp only [Prod.mk.injEq, Option.map_eq_some_iff, Option.isSome_iff_exists] at hchecked
  obtain ⟨hacked, ⟨e, hflush, hfatal⟩, ⟨e', hclose⟩, hread⟩ := hchecked
  exact ⟨journal.intact_whole ledger _ (by decide) (by decide), course, hcourse, hacked,
    ⟨e, _, hfatal, Action.eq_error_leaves hflush⟩, e', _, _, Action.eq_error_leaves hclose, _,
    Action.eq_ok_leaves hread⟩

end Journal.Intact

end SegmentedJournal
