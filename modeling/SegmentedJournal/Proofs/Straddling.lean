import SegmentedJournal.Proofs.Collecting
import SegmentedJournal.Proofs.Gaps
import SegmentedJournal.Proofs.Intact
/-!
# Probes that straddle a pass of the collector

A probe lists the checkpoints and then the logs (`Journal.probe_eq`), and between the two listings
anything may happen beside it (`Journal.probeAround`): checkpoints are placed, and passes of the
collector go on (`Upkeep`).  The files stay as they should be (`Upkeep.Kept.run`), but the probe
puts the checkpoints of one moment and the logs of another together
(`Account.Durable.ensures_probeFrom`).

So it finds where durable data end if and only if the first listing showed a checkpoint that reaches
so far, or the second one a log (`Account.Durable.next_probeAround_iff`).  Where a checkpoint is
placed there in between and a pass removes every log, it finds the end of what the earlier
checkpoints reached (`Account.Durable.next_probeAround_overtaken`).
-/

namespace SegmentedJournal

open Medium (Foiled Keeps Quieter)

/-! ### Probes in two listings -/

/-- Checkpoints are only put beside the logs. -/
theorem Snapshot.ofSegments_of_eq_ok {root : String} {checkpoints logs : List Segment}
    {snapshot : Snapshot} (h : ofSegments root checkpoints logs = .ok snapshot)
    (checkpoints' : List Segment) :
    ofSegments root checkpoints' logs = .ok { snapshot with checkpoints := checkpoints' } := by
  unfold ofSegments at h ⊢
  dsimp only at h ⊢
  split at h <;> cases h <;> rfl

namespace Journal

variable {σ η : Type} [Storage σ η]

/-- What is left of a probe once the checkpoints are listed. -/
def probeFrom (journal : Journal) (checkpoints : List Segment) :
    Action JournalError (Medium σ) Frontier := do
  let snapshot ← journal.snapshotFrom checkpoints
  match snapshot.current with
  | none => return .ofSnapshot snapshot none
  | some current => return .ofSnapshot snapshot (← scan current)

theorem probe_eq (journal : Journal) :
    (journal.probe : Action JournalError (Medium σ) Frontier) =
      journal.listSegments .checkpoint >>= journal.probeFrom := by
  unfold probe probeFrom
  exact bind_assoc (journal.listSegments .checkpoint) journal.snapshotFrom _

/-- A probe where something happens to the medium between its two listings. -/
def probeAround (journal : Journal) (between : Medium σ → Medium σ) :
    Action JournalError (Medium σ) Frontier := do
  let checkpoints ← journal.listSegments .checkpoint
  modify between
  journal.probeFrom checkpoints

/-- Where nothing happens it is a probe. -/
theorem probeAround_id (journal : Journal) :
    (journal.probeAround id : Action JournalError (Medium σ) Frontier) = journal.probe := by
  rw [probe_eq]
  rfl

/-- The logs that a listing finds are listed with whichever checkpoints were listed before. -/
theorem ensures_snapshotFrom_of_lists {journal : Journal} {medium : Medium Memory}
    {checkpoints complete : List Segment} {current : Option Segment}
    (h : journal.Lists medium.storage.files checkpoints complete current)
    (checkpoints' : List Segment) (hhonest : medium.Honest) :
    (journal.snapshotFrom checkpoints').Ensures medium
      (fun snapshot after => snapshot = ⟨checkpoints', complete, current⟩ ∧ Keeps medium after)
      (fun _ after => Foiled medium after) := by
  have hfound := Snapshot.ofSegments_of_eq_ok
    (show Snapshot.ofSegments _ _ _ = .ok _ from h.snapshotOf_eq) checkpoints'
  refine (ensures_snapshotFrom _ _ hhonest).mono ?_ ?_
  · rintro snapshot after ⟨hsnapshot, hkeeps⟩
    cases hfound.symm.trans hsnapshot
    exact ⟨rfl, hkeeps⟩
  · rintro e after (⟨herror, -⟩ | hfoiled)
    · cases hfound.symm.trans herror
    · exact hfoiled.2

/-- A checkpoint that is placed leaves the logs as they are. -/
theorem Lists.complete_eq_of_place {journal : Journal} {files : PathMap Bytes}
    {checkpoints checkpoints' complete complete' : List Segment}
    {current current' : Option Segment} {stop : UInt64} {image : Bytes}
    (h : journal.Lists files checkpoints complete current) (hstop : stop ≤ unknownStop)
    (hplaced : journal.Lists (files.insert (journal.checkpoint 0 stop).location image) checkpoints'
      complete' current') : complete = complete' := by
  have hplaces := journal.places_checkpoint
    (show (0 : UInt64) ≤ stop from UInt64.le_iff_toNat_le.2 (Nat.zero_le _)) hstop
  obtain ⟨known, hsorted, hmem⟩ := h.exists_checkpoints hplaces rfl
  have hinserted : journal.Lists (files.insert (journal.checkpoint 0 stop).location image) known
      complete current := h.insert_checkpoint hplaces rfl hsorted hmem
  cases hinserted.snapshotOf_eq.symm.trans hplaced.snapshotOf_eq
  rfl

end Journal

/-! ### What goes on beside a probe -/

/-- What can happen to a journal that nobody writes to. -/
inductive Deed where
  /-- A checkpoint of everything before `stop` is placed. -/
  | place (stop : UInt64) (image : Bytes)
  /-- The collector goes on: it removes the next segment of its pass, or begins another pass. -/
  | collect

/-- Where a checkpoint that is placed stops. -/
def Deed.stop : Deed → Nat
  | .place stop _ => stop.toNat
  | .collect => 0

/-- A medium and the collector at work on it. -/
structure Upkeep where
  /-- The medium. -/
  medium : Medium Memory
  /-- What the pass under way has still to remove. -/
  todo : List Segment := []

namespace Upkeep

/-- A pass begins with a snapshot, by which it decides what to remove, and then removes one segment
after the other.  One that fails ends. -/
def collect (journal : Journal) (upkeep : Upkeep) : Upkeep :=
  match upkeep.todo with
  | [] =>
    match journal.plan upkeep.medium with
    | .ok todo medium => { medium, todo }
    | .error _ medium => { medium }
  | segment :: todo =>
    match Journal.remove segment.location upkeep.medium with
    | .ok _ medium => { medium, todo }
    | .error _ medium => { medium }

/-- What a deed makes of it. -/
def step (journal : Journal) (upkeep : Upkeep) : Deed → Upkeep
  | .place stop image =>
    let path := (journal.checkpoint 0 stop).location
    let medium := upkeep.medium
    { upkeep with medium := { medium with storage := Storage.put path image medium.storage } }
  | .collect => upkeep.collect journal

/-- What deeds make of it, one after the other. -/
def run (journal : Journal) (upkeep : Upkeep) (deeds : List Deed) : Upkeep :=
  deeds.foldl (step journal) upkeep

@[simp] theorem run_nil (journal : Journal) (upkeep : Upkeep) : upkeep.run journal [] = upkeep :=
  rfl

@[simp] theorem run_cons (journal : Journal) (upkeep : Upkeep) (deed : Deed) (deeds : List Deed) :
    upkeep.run journal (deed :: deeds) = (upkeep.step journal deed).run journal deeds := rfl

/-- What deeds make of a medium, where no pass is under way. -/
def after (journal : Journal) (deeds : List Deed) (medium : Medium Memory) : Medium Memory :=
  (run journal { medium } deeds).medium

/-! ### Passes -/

section

variable {journal : Journal} {upkeep : Upkeep} {medium : Medium Memory} {segment : Segment}
  {todo : List Segment} {removed : Bool}

/-- A pass begins. -/
theorem collect_of_plan (htodo : upkeep.todo = [])
    (h : journal.plan upkeep.medium = .ok todo medium) :
    upkeep.collect journal = { medium, todo } := by
  unfold collect
  rw [htodo]
  dsimp only
  rw [h]

/-- A pass removes a segment. -/
theorem collect_of_remove (htodo : upkeep.todo = segment :: todo)
    (h : Journal.remove segment.location upkeep.medium = .ok removed medium) :
    upkeep.collect journal = { medium, todo } := by
  unfold collect
  rw [htodo]
  dsimp only
  rw [h]

theorem exists_run_todo (journal : Journal) (segments : List Segment) (medium : Medium Memory) :
    ∃ count, run journal { medium, todo := segments } (List.replicate count .collect) =
      { medium := (Journal.removeAll segments).leaves medium } := by
  induction segments generalizing medium with
  | nil => exact ⟨0, rfl⟩
  | cons segment segments ih =>
      rw [Journal.removeAll, Action.leaves_bind]
      cases heq : Journal.remove segment.location medium with
      | ok removed middle =>
          obtain ⟨count, hrest⟩ := ih middle
          have hcollect : collect journal { medium, todo := segment :: segments } =
              { medium := middle, todo := segments } := collect_of_remove rfl heq
          refine ⟨count + 1, ?_⟩
          rw [List.replicate_succ, run_cons, step, hcollect, hrest]
          dsimp only
          rw [Action.leaves_bind, Action.leaves]
          cases Journal.removeAll segments middle <;> rfl
      | error e middle =>
          refine ⟨1, ?_⟩
          rw [List.replicate_one, run_cons, run_nil, step, collect]
          dsimp only
          rw [heq]

/-- **A pass** that nothing interrupts is the one that the collector makes. -/
theorem exists_run_pass (journal : Journal) (medium : Medium Memory) :
    ∃ count, run journal { medium } (List.replicate count .collect) =
      { medium := journal.collect.leaves medium } := by
  rw [Journal.leaves_collect, Action.leaves_bind]
  cases heq : journal.plan medium with
  | ok segments middle =>
      obtain ⟨count, hrest⟩ := exists_run_todo journal segments middle
      have hcollect : collect journal { medium } = { medium := middle, todo := segments } :=
        collect_of_plan rfl heq
      refine ⟨count + 1, ?_⟩
      rw [List.replicate_succ, run_cons, step, hcollect]
      exact hrest
  | error e middle =>
      refine ⟨1, ?_⟩
      rw [List.replicate_one, run_cons, run_nil, step, collect]
      dsimp only
      rw [heq]

end

/-! ### Upkeep that leaves the files as they should be -/

variable {account : Account} {current : Option Segment} {upkeep : Upkeep} {deed : Deed}
  {deeds : List Deed} {n : Nat}

/-- Durable data end at `n`, nothing is armed, and the pass removes only what is redundant. -/
structure Kept (account : Account) (current : Option Segment) (n : Nat) (upkeep : Upkeep) : Prop
    where
  /-- The current log holds no entries, if there is one. -/
  durable : account.Durable upkeep.medium.storage.files current n n
  /-- No checkpoint reaches further. -/
  reach_le : account.reach ≤ n
  /-- The pass removes only what is redundant. -/
  redundant : ∀ segment ∈ upkeep.todo, account.Redundant segment
  /-- Nothing is armed. -/
  quiet : upkeep.medium.armed = 0

namespace Kept

theorem of_keeps {medium : Medium Memory} {todo : List Segment}
    (h : upkeep.Kept account current n) (hkeeps : Keeps upkeep.medium medium)
    (htodo : ∀ segment ∈ todo, account.Redundant segment) :
    Kept account current n { medium, todo } :=
  ⟨hkeeps.files_eq ▸ h.durable, h.reach_le, htodo, hkeeps.quiet h.quiet⟩

/-- A checkpoint is placed. -/
theorem place (h : upkeep.Kept account current n) {stop : UInt64} (hstop : stop.toNat ≤ n)
    (image : Bytes) :
    ∃ account', account.Akin account' ∧ account'.reach = max account.reach stop.toNat ∧
      (upkeep.step account.journal (.place stop image)).Kept account' current n := by
  have hbound := Nat.lt_of_le_of_lt hstop h.durable.stands.bound
  obtain ⟨account', hakin, hreach, hfollows⟩ :=
    h.durable.stands.follows_place (UInt64.le_iff_toNat_le.2 (Nat.le_of_lt hbound)) image
  refine ⟨account', hakin, hreach, hfollows.durable h.durable, ?_, ?_, h.quiet⟩
  · rw [hreach]
    exact Nat.max_le.2 ⟨h.reach_le, hstop⟩
  · intro segment hsegment
    exact (h.redundant segment hsegment).mono hakin.journal_eq (hreach ▸ Nat.le_max_left ..)

/-- The collector goes on. -/
theorem collect (h : upkeep.Kept account current n) :
    ∃ account', account.Akin account' ∧ account'.reach = account.reach ∧
      (upkeep.collect account.journal).Kept account' current n := by
  cases htodo : upkeep.todo with
  | nil =>
      obtain ⟨complete, harchive⟩ := h.durable.stands
      obtain ⟨segments, medium, hplan, hsegments, -, hkeeps⟩ :=
        (harchive.ensures_plan (Medium.tame_of_armed h.quiet)).exists_ok
          fun _ _ hfoiled => hfoiled.toFired.elim h.quiet
      rw [collect_of_plan htodo hplan]
      exact ⟨account, .refl account, rfl, h.of_keeps hkeeps hsegments⟩
  | cons segment todo =>
      have hredundant := htodo ▸ h.redundant
      obtain ⟨removed, medium, hremove, hquieter, account', hakin, hreach, hfollows⟩ :=
        ((hredundant segment List.mem_cons_self).ensures_remove upkeep.medium).exists_ok
          fun _ _ hfoiled => hfoiled.toFired.elim h.quiet
      rw [collect_of_remove htodo hremove]
      refine ⟨account', hakin, hreach, hfollows.durable h.durable, hreach ▸ h.reach_le, ?_,
        hquieter.quiet h.quiet⟩
      intro other hother
      exact (hredundant other (List.mem_cons_of_mem _ hother)).mono hakin.journal_eq
        (Nat.le_of_eq hreach.symm)

/-- **Step**: a deed leaves the files as they should be, and only a checkpoint that it places
reaches further. -/
theorem step (h : upkeep.Kept account current n) (hdeed : deed.stop ≤ n) :
    ∃ account', account.Akin account' ∧ account'.reach = max account.reach deed.stop ∧
      (upkeep.step account.journal deed).Kept account' current n := by
  cases deed with
  | place stop image => exact h.place hdeed image
  | collect =>
      obtain ⟨account', hakin, hreach, hkept⟩ := h.collect
      exact ⟨account', hakin, hreach.trans (Nat.max_zero _).symm, hkept⟩

/-- **Run**: so do deeds one after the other, in any order. -/
theorem run (h : upkeep.Kept account current n) (hdeeds : ∀ deed ∈ deeds, deed.stop ≤ n) :
    ∃ account', account.Akin account' ∧
      (account'.reach = account.reach ∨ ∃ deed ∈ deeds, deed.stop = account'.reach) ∧
      (upkeep.run account.journal deeds).Kept account' current n := by
  induction deeds generalizing upkeep account with
  | nil => exact ⟨account, .refl account, .inl rfl, h⟩
  | cons deed deeds ih =>
      obtain ⟨middle, hakin, hmiddle, hstep⟩ := h.step (hdeeds deed List.mem_cons_self)
      obtain ⟨account', hakin', hreach, hkept⟩ :=
        ih hstep fun other hother => hdeeds other (List.mem_cons_of_mem _ hother)
      rw [hakin.journal_eq] at hkept
      refine ⟨account', hakin.trans hakin', ?_, hkept⟩
      rcases hreach with hsame | ⟨other, hother, hstop⟩
      · rcases Nat.le_total deed.stop account.reach with hle | hle
        · exact .inl (hsame.trans (hmiddle.trans (Nat.max_eq_left hle)))
        · exact .inr ⟨deed, List.mem_cons_self,
            ((hsame.trans hmiddle).trans (Nat.max_eq_right hle)).symm⟩
      · exact .inr ⟨other, List.mem_cons_of_mem _ hother, hstop⟩

end Kept

/-! ### A pass that gets through -/

/-- What is there once the first segments that a pass has to remove are removed was there before,
and is none of them. -/
theorem contains_run_collect {journal : Journal} {segments rest : List Segment} {path : String}
    (htodo : upkeep.todo = segments ++ rest) (hquiet : upkeep.medium.armed = 0)
    (hpath : (upkeep.run journal
      (List.replicate segments.length .collect)).medium.storage.files.contains path = true) :
    upkeep.medium.storage.files.contains path = true ∧
      ∀ segment ∈ segments, segment.location ≠ path := by
  induction segments generalizing upkeep with
  | nil => exact ⟨hpath, nofun⟩
  | cons segment segments ih =>
      obtain ⟨removed, medium, hremove, hquieter, hfiles⟩ :=
        (Journal.ensures_remove segment.location upkeep.medium).exists_ok
          fun _ _ hfoiled => hfoiled.toFired.elim hquiet
      rw [List.length_cons, List.replicate_succ, run_cons, step,
        collect_of_remove htodo hremove] at hpath
      obtain ⟨hstill, hothers⟩ := ih rfl (hquieter.quiet hquiet) hpath
      have hbefore : upkeep.medium.storage.files.contains path = true ∧
          segment.location ≠ path := by
        rcases hfiles with hfiles | ⟨hfiles, habsent⟩
        · rw [hfiles, PathMap.contains_erase] at hstill
          exact hstill.symm
        · rw [hfiles] at hstill
          refine ⟨hstill, ?_⟩
          rintro rfl
          rw [hstill] at habsent
          cases habsent
      refine ⟨hbefore.1, ?_⟩
      intro other hother
      rcases List.mem_cons.1 hother with rfl | hlater
      · exact hbefore.2
      · exact hothers other hlater

/-- If a checkpoint is placed where durable data end, then a pass removes every complete log before
anything else. -/
theorem stop_eq_of_has_after {complete : List Segment} {medium : Medium Memory} {log : Segment}
    {image : Bytes} (h : account.Durable medium.storage.files current n n)
    (hlists : account.journal.Lists medium.storage.files account.checkpoints complete current)
    (hreach : account.reach < n) (hquiet : medium.armed = 0)
    (hlog : account.journal.Has (after account.journal
      (.place (UInt64.ofNat n) image :: .collect :: List.replicate complete.length .collect)
      medium).storage.files .log log) : log.stop = unknownStop := by
  have hself : (UInt64.ofNat n).toNat = n := Account.toNat_ofNat_of_bound h.stands.bound
  have hkept : Kept account current n { medium } := ⟨h, Nat.le_of_lt hreach, nofun, hquiet⟩
  obtain ⟨account', hakin, hreach', hplaced⟩ := hkept.place (Nat.le_of_eq hself) image
  rw [hself, Nat.max_eq_right (Nat.le_of_lt hreach)] at hreach'
  generalize hmiddle : Upkeep.step account.journal { medium } (.place (UInt64.ofNat n) image) =
    middle at hplaced
  obtain ⟨complete', harchive⟩ := hplaced.durable.stands
  have hfound := harchive.lists
  rw [hakin.journal_eq, ← hmiddle] at hfound
  obtain rfl := hlists.complete_eq_of_place (Account.ofNat_le_unknownStop h.stands.bound) hfound
  obtain ⟨segments, medium', hplan, -, hprefix, hkeeps⟩ :=
    (harchive.ensures_plan (Medium.tame_of_armed hplaced.quiet)).exists_ok
      fun _ _ hfoiled => hfoiled.toFired.elim hplaced.quiet
  obtain ⟨rest, rfl⟩ := hprefix (by omega) (Nat.le_of_eq hreach'.symm)
  rw [hakin.journal_eq] at hplan
  have htodo : middle.todo = [] := by
    rw [← hmiddle]
    rfl
  rw [after, run_cons, hmiddle, run_cons, step, collect_of_plan htodo hplan] at hlog
  obtain ⟨hbefore, hothers⟩ := contains_run_collect rfl (hkeeps.quiet hplaced.quiet) hlog.present
  refine Classical.not_not.1 fun hstop => ?_
  rw [hkeeps.files_eq] at hbefore
  exact hothers log ((harchive.lists.mem_complete log).2
    ⟨⟨hakin.journal_eq.symm ▸ hlog.places, hlog.kind_eq, hbefore⟩, hstop⟩) rfl

end Upkeep

/-! ### What the two listings say together -/

namespace Account

variable {account account' : Account} {current : Option Segment} {deeds : List Deed}
  {medium : Medium Memory} {n : Nat}

/-- Between the listings of a probe these deeds were done, and the second one showed these complete
logs. -/
structure Straddled (account : Account) (deeds : List Deed) (current : Option Segment) (n : Nat)
    (medium after : Medium Memory) (complete : List Segment) : Prop where
  /-- The deeds are all that changed the files. -/
  files_eq : ∃ middle, Keeps medium middle ∧
    after.storage.files = (Upkeep.after account.journal deeds middle).storage.files
  /-- The files are as they should be, and reached as far as before or as far as a checkpoint that
  was placed. -/
  archive : ∃ account', account.Akin account' ∧
    (account'.reach = account.reach ∨ ∃ deed ∈ deeds, deed.stop = account'.reach) ∧
    account'.Archive after.storage.files complete current n

theorem lastPersisted_ofSnapshot (account : Account) {complete : List Segment}
    {current : Option Segment} (hend : (endOf complete).toNat < unknownStop.toNat)
    (hreach : account.reach < unknownStop.toNat) :
    (Frontier.ofSnapshot ⟨account.checkpoints, complete, current⟩ none).lastPersisted =
      before? (max (endOf complete).toNat account.reach) := by
  rw [Frontier.ofSnapshot, Option.none_or, latestCheckpoint?_bind rfl]
  exact Frontier.greater?_lastLog? hend hreach

namespace Durable

/-- A probe that listed other checkpoints finds where those reached, or where the logs end. -/
theorem ensures_probeFrom (h : account'.Durable medium.storage.files current n n)
    (hreach : account.reach < unknownStop.toNat) (hhonest : medium.Honest) :
    (account'.journal.probeFrom account.checkpoints).Ensures medium
      (fun frontier after => Keeps medium after ∧ ∃ complete,
        account'.Archive medium.storage.files complete current n ∧
        frontier.lastPersisted = before? (max (endOf complete).toNat account.reach))
      (fun _ after => Foiled medium after) := by
  obtain ⟨complete, harchive⟩ := h.stands
  have hend : (endOf complete).toNat < unknownStop.toNat :=
    Nat.lt_of_le_of_lt harchive.endOf_le harchive.bound
  have hlast : (Frontier.ofSnapshot ⟨account.checkpoints, complete, current⟩ none).lastPersisted =
      before? (max (endOf complete).toNat account.reach) :=
    account.lastPersisted_ofSnapshot hend hreach
  rw [Journal.probeFrom, Action.ensures_bind]
  refine (Journal.ensures_snapshotFrom_of_lists harchive.lists _ hhonest).mono ?_
    fun _ _ hfoiled => hfoiled
  rintro _ middle ⟨rfl, hkeeps⟩
  cases current with
  | none =>
      exact ⟨hkeeps, complete, harchive, hlast⟩
  | some log =>
      obtain ⟨tail, htail, hget⟩ := h.present log rfl
      rw [← hkeeps.files_eq] at hget
      simp only [Journal.scan, Action.ensures_bind]
      refine (SegmentReader.ensures_load hget).mono ?_ (fun _ _ hfoiled => hkeeps.foiled hfoiled.2)
      rintro reader after ⟨rfl, hkeeps'⟩
      refine ⟨hkeeps.trans hkeeps', complete, harchive, ?_⟩
      -- The current log starts where the complete ones end, and holds no entry behind that.
      rw [SegmentReader.greatest?_frames account'.fits (Nat.lt_trans harchive.bound (by decide))
        (Frame.decode_of_torn htail) rfl, if_neg (Nat.lt_irrefl n)]
      exact hlast

/-- Whatever happens between the listings, a probe finds where the checkpoints of the first one
reached, or where the logs of the second one end. -/
theorem ensures_probeAround (h : account.Durable medium.storage.files current n n)
    (hreach : account.reach ≤ n) (hquiet : medium.armed = 0)
    (hdeeds : ∀ deed ∈ deeds, deed.stop ≤ n) :
    (account.journal.probeAround (Upkeep.after account.journal deeds)).Ensures medium
      (fun frontier after => ∃ complete,
        account.Straddled deeds current n medium after complete ∧
        frontier.lastPersisted = before? (max (endOf complete).toNat account.reach))
      (fun _ _ => False) := by
  obtain ⟨complete, harchive⟩ := h.stands
  rw [Journal.probeAround, Action.ensures_bind]
  refine (Journal.ensures_listSegments _ .checkpoint (Medium.tame_of_armed hquiet).honest).mono ?_
    fun _ _ hfoiled => hfoiled.2.toFired.elim hquiet
  rintro _ middle ⟨rfl, hkeeps⟩
  rw [harchive.lists.segmentsIn_checkpoint, Action.ensures_bind, Action.ensures_modify]
  have hkept : Upkeep.Kept account current n { medium := middle } :=
    ⟨hkeeps.files_eq ▸ h, hreach, nofun, hkeeps.quiet hquiet⟩
  obtain ⟨account', hakin, hwhere, hafter⟩ := hkept.run hdeeds
  have hprobe := hafter.durable.ensures_probeFrom (Nat.lt_of_le_of_lt hreach h.stands.bound)
    (Medium.tame_of_armed hafter.quiet).honest
  rw [hakin.journal_eq] at hprobe
  refine hprobe.mono ?_ fun _ _ hfoiled => hfoiled.toFired.elim hafter.quiet
  rintro frontier after ⟨hkeeps', complete', harchive', hlast⟩
  rw [← hkeeps'.files_eq] at harchive'
  exact ⟨complete', ⟨⟨middle, hkeeps, hkeeps'.files_eq⟩, account', hakin, hwhere, harchive'⟩, hlast⟩

theorem exists_next_probeAround (h : account.Durable medium.storage.files current n n)
    (hreach : account.reach ≤ n) (hquiet : medium.armed = 0)
    (hdeeds : ∀ deed ∈ deeds, deed.stop ≤ n) :
    ∃ complete after,
      (account.journal.probeAround (Upkeep.after account.journal deeds) >>= Frontier.next) medium =
        .ok (UInt64.ofNat (max (endOf complete).toNat account.reach)) after ∧
      account.Straddled deeds current n medium after complete := by
  have hensures : (account.journal.probeAround (Upkeep.after account.journal deeds) >>=
      Frontier.next).Ensures medium
        (fun found after => ∃ complete,
          found = UInt64.ofNat (max (endOf complete).toNat account.reach) ∧
          account.Straddled deeds current n medium after complete)
        (fun _ _ => False) := by
    rw [Action.ensures_bind]
    refine (h.ensures_probeAround hreach hquiet hdeeds).mono ?_ fun _ _ hnone => hnone
    rintro frontier after ⟨complete, hstraddled, hlast⟩
    obtain ⟨account', -, -, harchive⟩ := hstraddled.archive
    have hle := Nat.max_le.2 ⟨harchive.endOf_le, hreach⟩
    rw [Frontier.ensures_next hlast (Nat.lt_trans (Nat.lt_of_le_of_lt hle harchive.bound)
      (by decide))]
    exact ⟨complete, rfl, hstraddled⟩
  obtain ⟨_, after, hnext, complete, rfl, hstraddled⟩ := hensures.exists_ok fun _ _ hnone => hnone
  exact ⟨complete, after, hnext, hstraddled⟩

/-- **Probes that straddle what goes on**: let nothing be armed, let durable data end at `n` with
the logs or with what checkpoints reach, and hold the current log no entries.  Whatever happens
between the two listings of a probe, it does not find more than `n`; it finds `n` if and only if the
first listing showed a checkpoint that reaches so far or the second one still shows a log that stops
there; and so it does unless a checkpoint was placed there in between. -/
theorem next_probeAround_iff (h : account.Durable medium.storage.files current n n)
    (hreach : account.reach ≤ n) (hquiet : medium.armed = 0)
    (hdeeds : ∀ deed ∈ deeds, deed.stop ≤ n) :
    ∃ next after,
      (account.journal.probeAround (Upkeep.after account.journal deeds) >>= Frontier.next) medium =
        .ok (UInt64.ofNat next) after ∧ next ≤ n ∧
      (next = n ↔ account.reach = n ∨
        ∃ log, account.journal.Has after.storage.files .log log ∧ log.stop = UInt64.ofNat n) ∧
      ((∀ deed ∈ deeds, deed.stop ≠ n) → next = n) := by
  obtain ⟨complete, after, hnext, -, account', hakin, hwhere, harchive⟩ :=
    h.exists_next_probeAround hreach hquiet hdeeds
  have hend := harchive.endOf_le
  refine ⟨_, after, hnext, Nat.max_le.2 ⟨hend, hreach⟩, ?_, fun hnever => ?_⟩
  · by_cases hshort : account.reach = n
    · exact iff_of_true (by omega) (.inl hshort)
    · rw [or_iff_right hshort, ← hakin.journal_eq, ← harchive.endOf_eq_iff (by omega)]
      omega
  · by_cases hshort : account.reach = n
    · omega
    · have hlt : account'.reach < n := by
        rcases hwhere with hsame | ⟨deed, hdeed, hstop⟩
        · omega
        · have hle := hdeeds deed hdeed
          have hne := hnever deed hdeed
          omega
      have hlogs := harchive.endOf_eq_of_lt hlt
      omega

/-- For example, a probe finds the end of a log although a checkpoint is placed within it and a pass
goes on. -/
theorem next_probeAround_short :
    let journal := Journal.rooted "journal" {}
    let ledger : Ledger := fun i => [UInt8.ofNat i]
    let files := PathMap.empty.insert (journal.log 0 2).location (ledger.frames 0 2)
    let medium : Medium Memory := { storage := { publishing := .onFlush, files } }
    let deeds : List Deed := [.place 1 [], .collect, .collect]
    ∃ after, (journal.probeAround (Upkeep.after journal deeds) >>= Frontier.next) medium =
      .ok 2 after := by
  intro journal ledger files medium deeds
  have hfits : ledger.Fits := fun i => (by decide : 1 ≤ Frame.maxPayload)
  have hintact := journal.intact_whole ledger 0 (by decide : (0 : UInt64) ≤ 2) (by decide)
  have hdurable : (journal.account ledger hfits 2 0).Durable medium.storage.files none 2 2 :=
    hintact.durable hfits (Nat.le_refl _)
  obtain ⟨next, after, hnext, -, -, hshort⟩ := hdurable.next_probeAround_iff (Nat.zero_le 2)
    (rfl : medium.armed = 0) (show ∀ deed ∈ deeds, deed.stop ≤ 2 by simp [deeds, Deed.stop])
  rw [hshort (by simp [deeds, Deed.stop])] at hnext
  exact ⟨after, hnext⟩

/-- A probe beside which nothing happens finds where durable data end. -/
theorem exists_next_probe (h : account.Durable medium.storage.files current n n)
    (hreach : account.reach ≤ n) (hquiet : medium.armed = 0) :
    ∃ after, (account.journal.probe >>= Frontier.next) medium = .ok (UInt64.ofNat n) after := by
  have hensures : (account.journal.probe >>= Frontier.next).Ensures medium
      (fun found _ => found = UInt64.ofNat n) (fun _ _ => False) := by
    have hbound := h.stands.bound
    rw [Action.ensures_bind]
    refine (h.ensures_probe hbound (Nat.lt_of_le_of_lt hreach hbound)
      (Medium.tame_of_armed hquiet).honest).mono ?_ fun _ _ hfoiled => hfoiled.2.toFired.elim hquiet
    rintro frontier after ⟨-, -, hlast, -⟩
    rw [Account.frontier, if_neg (Nat.lt_irrefl n), Nat.max_eq_left hreach] at hlast
    rw [Frontier.ensures_next hlast (Nat.lt_trans hbound (by decide))]
  obtain ⟨_, after, hnext, rfl⟩ := hensures.exists_ok fun _ _ hnone => hnone
  exact ⟨after, hnext⟩

/-- A probe that is overtaken by a checkpoint and a pass finds no more than the checkpoints of its
first listing. -/
theorem next_probeAround_overtaken {complete : List Segment}
    (h : account.Durable medium.storage.files current n n)
    (hlists : account.journal.Lists medium.storage.files account.checkpoints complete current)
    (hreach : account.reach < n) (hquiet : medium.armed = 0) (image : Bytes) :
    let deeds : List Deed :=
      .place (UInt64.ofNat n) image :: .collect :: List.replicate complete.length .collect
    ∃ after,
      (account.journal.probeAround (Upkeep.after account.journal deeds) >>= Frontier.next) medium =
        .ok (UInt64.ofNat account.reach) after := by
  intro deeds
  have hdeeds : ∀ deed ∈ deeds, deed.stop ≤ n := by
    intro deed hdeed
    rcases List.mem_cons.1 hdeed with rfl | hcollect
    · exact Nat.le_of_eq (toNat_ofNat_of_bound h.stands.bound)
    · rcases List.mem_cons.1 hcollect with rfl | hcollect
      · exact Nat.zero_le n
      · rw [List.eq_of_mem_replicate hcollect]
        exact Nat.zero_le n
  obtain ⟨complete', after, hnext, ⟨middle, hkeeps, hfiles⟩, account', hakin, -, harchive⟩ :=
    h.exists_next_probeAround (Nat.le_of_lt hreach) hquiet hdeeds
  have hnone : complete' = [] := by
    refine List.eq_nil_iff_forall_not_mem.2 fun log hlog => ?_
    obtain ⟨hhas, hstop⟩ := harchive.has_of_mem hlog
    rw [hakin.journal_eq, hfiles] at hhas
    rw [← hkeeps.files_eq] at h hlists
    exact hstop (Upkeep.stop_eq_of_has_after h hlists hreach (hkeeps.quiet hquiet) hhas)
  rw [hnone, endOf_nil, UInt64.toNat_zero, Nat.zero_max] at hnext
  exact ⟨after, hnext⟩

/-- For example, one that is overtaken by a checkpoint at the end of the only log and by a pass
finds nothing, so that the entries before the first one in a writer's queue are reported missing. -/
theorem next_probeAround_overtaken_whole :
    let journal := Journal.rooted "journal" {}
    let ledger : Ledger := fun i => [UInt8.ofNat i]
    let files := PathMap.empty.insert (journal.log 0 2).location (ledger.frames 0 2)
    let medium : Medium Memory := { storage := { publishing := .onFlush, files } }
    let deeds : List Deed := [.place 2 [], .collect, .collect]
    (∃ after, (journal.probe >>= Frontier.next) medium = .ok 2 after) ∧
      (∃ after, (journal.probeAround (Upkeep.after journal deeds) >>= Frontier.next) medium =
        .ok 0 after) ∧
      ∀ (writer : Writer Memory.Stream) (first : Entry), writer.unflushed.head? = some first →
        first.sequence = 2 → writer.checkFrontier 0 = .error (.entryMissing 0 2) := by
  intro journal ledger files medium deeds
  have hfits : ledger.Fits := fun i => (by decide : 1 ≤ Frame.maxPayload)
  have hintact := journal.intact_whole ledger 0 (by decide : (0 : UInt64) ≤ 2) (by decide)
  have hdurable : (journal.account ledger hfits 2 0).Durable medium.storage.files none 2 2 :=
    hintact.durable hfits (Nat.le_refl _)
  refine ⟨hdurable.exists_next_probe (Nat.zero_le 2) rfl,
    hdurable.next_probeAround_overtaken hintact.lists (by decide : 0 < 2) rfl [], ?_⟩
  intro writer first hfirst hsequence
  exact Writer.checkFrontier_eq_entryMissing_iff.2
    ⟨rfl, by decide, first, hfirst, hsequence⟩

end Durable

end Account

end SegmentedJournal
