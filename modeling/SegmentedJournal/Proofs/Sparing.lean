import SegmentedJournal.Proofs.Agreeing
import SegmentedJournal.Proofs.Sweeping
/-!
# What a pass of the collector spares

A pass may stop after any deletion.  At each such moment (`Journal.collectUpTo`) everything is
there that is still needed: the latest checkpoint, the logs that reach beyond it, and whatever is
no segment.  A replay from a number that the checkpoint has reached takes the same logs as before,
so it answers every read as before (`Replay.answersFrom_congr`).  Of contiguous logs those that are
gone come first, so the others are contiguous, and the end that a probe finds is where it was
(`Journal.sweep_spares`).
-/

namespace SegmentedJournal

open Medium (Noted)

/-! ### Logs that are gone from the front -/

namespace Chain

variable {reach x y : Nat} {log : Segment} {logs : List Segment}

/-- Logs that lead on from a number stop there or behind it. -/
theorem le_stop (h : Chain reach x logs y) (hlog : log ∈ logs) : x ≤ log.stop.toNat := by
  induction logs generalizing x with
  | nil => cases hlog
  | cons first logs ih =>
    obtain ⟨hlink, hbounds, hchain⟩ := h
    have hfirst := Nat.le_trans hlink.le (UInt64.le_iff_toNat_le.1 hbounds)
    rcases List.mem_cons.1 hlog with rfl | hlog
    · exact hfirst
    · exact Nat.le_trans hfirst (ih hchain hlog)

theorem pairwise_stop_le (h : Chain reach x logs y) :
    logs.Pairwise fun a b => a.stop ≤ b.stop := by
  induction logs generalizing x with
  | nil => exact .nil
  | cons first logs ih =>
    obtain ⟨-, -, hchain⟩ := h
    exact List.pairwise_cons.2
      ⟨fun other hother => UInt64.le_iff_toNat_le.2 (hchain.le_stop hother), ih hchain⟩

end Chain

namespace Frontier

/-- A log that stops where a checkpoint does or before names no number behind it. -/
theorem greater?_lastNamed?_of_le {log checkpoint : Segment} (h : log.stop ≤ checkpoint.stop) :
    greater? (lastNamed? log) (lastNamed? checkpoint) = lastNamed? checkpoint := by
  unfold lastNamed?
  by_cases hzero : log.stop = 0
  · rw [if_pos hzero]
    rfl
  · have hle := UInt64.le_iff_toNat_le.1 h
    have hone (segment : Segment) (hpos : segment.stop.toNat ≠ 0) :
        (segment.stop - 1).toNat = segment.stop.toNat - 1 :=
      UInt64.toNat_sub_of_le _ _ (UInt64.le_iff_toNat_le.2 (Nat.one_le_iff_ne_zero.2 hpos))
    have hpos : log.stop.toNat ≠ 0 := fun heq => hzero (UInt64.toNat_inj.1 heq)
    have hpos' : checkpoint.stop.toNat ≠ 0 := by omega
    have hne : checkpoint.stop ≠ 0 := fun heq => hpos' (congrArg UInt64.toNat heq)
    have hpred : log.stop - 1 ≤ checkpoint.stop - 1 := by
      rw [UInt64.le_iff_toNat_le, hone log hpos, hone checkpoint hpos']
      omega
    rw [if_neg hzero, if_neg hne]
    exact congrArg some (if_pos hpred)

end Frontier

namespace Snapshot

variable {snapshot : Snapshot} {gone front back : List Segment} {latest : Segment} {n : UInt64}

theorem areContiguous_of_append (h : areContiguous (front ++ back) = true) :
    areContiguous back = true := by
  induction front with
  | nil => exact h
  | cons first front ih =>
    refine ih ?_
    rw [List.cons_append] at h
    cases hrest : front ++ back with
    | nil => rfl
    | cons second rest =>
      rw [hrest, areContiguous, Bool.and_eq_true] at h
      exact h.2

/-- The snapshot once some segments are gone, none of which is the current log. -/
def leaving (snapshot : Snapshot) (gone : List Segment) : Snapshot :=
  ⟨snapshot.checkpoints.filter (· ∉ gone), snapshot.logs.filter (· ∉ gone), snapshot.current⟩

/-- Of segments in a row those that are not gone are left, if the ones that are come first. -/
theorem filter_notMem_append (hfront : ∀ segment ∈ front, segment ∈ gone)
    (hback : ∀ segment ∈ back, segment ∉ gone) : (front ++ back).filter (· ∉ gone) = back := by
  have hnil : front.filter (· ∉ gone) = [] :=
    List.filter_eq_nil_iff.2 fun segment hsegment => by simpa using hfront segment hsegment
  have hself : back.filter (· ∉ gone) = back :=
    List.filter_eq_self.2 fun segment hsegment => decide_eq_true (hback segment hsegment)
  rw [List.filter_append, hnil, hself, List.nil_append]

/-- Of contiguous logs those that stop early come first. -/
theorem redundantLogs_prefix (latest : Segment) (hcontiguous : areContiguous snapshot.logs = true)
    (hbounds : ∀ log ∈ snapshot.logs, log.start ≤ log.stop) :
    snapshot.redundantLogs latest <+: snapshot.logs := by
  have hstops := (chain_of_areContiguous hcontiguous hbounds).pairwise_stop_le
  have hdown : snapshot.logs.Pairwise fun a b =>
      decide (b.stop ≤ latest.stop) = true → decide (a.stop ≤ latest.stop) = true :=
    hstops.imp fun hle hstop => decide_eq_true (UInt64.le_trans hle (of_decide_eq_true hstop))
  rw [redundantLogs, ← PathMap.takeWhile_eq_filter hdown]
  exact List.takeWhile_prefix _

/-- A replay from a number that the segments do not reach past takes none of them. -/
theorem logsFrom_leaving (hgone : ∀ log ∈ gone, log ∈ snapshot.logs → log.stop ≤ n)
    (withIncomplete : Bool) :
    Replay.logsFrom (snapshot.leaving gone) n withIncomplete =
      Replay.logsFrom snapshot n withIncomplete := by
  have hlogs : (snapshot.logs.filter (· ∉ gone)).filter (fun log => n < log.stop) =
      snapshot.logs.filter fun log => n < log.stop := by
    rw [List.filter_filter]
    refine List.filter_congr fun log hlog => ?_
    by_cases hlt : n < log.stop
    · have hnot : log ∉ gone := fun hmem => UInt64.not_lt.2 (hgone log hmem hlog) hlt
      simp [hlt, hnot]
    · simp [hlt]
  unfold Replay.logsFrom leaving
  cases withIncomplete with
  | true =>
    simp only [if_true, List.filter_append]
    rw [hlogs]
  | false => exact hlogs

/-- Logs that go from the front, and which a checkpoint reaches past, leave the frontier where it
was. -/
theorem lastPersisted_leaving (hlogs : snapshot.logs = front ++ (snapshot.leaving gone).logs)
    (hfront : ∀ log ∈ front, log.stop ≤ latest.stop)
    (hlatest : snapshot.latestCheckpoint? = some latest)
    (hlatest' : (snapshot.leaving gone).latestCheckpoint? = some latest) (last : Option UInt64) :
    (Frontier.ofSnapshot (snapshot.leaving gone) last).lastPersisted =
      (Frontier.ofSnapshot snapshot last).lastPersisted := by
  unfold Frontier.ofSnapshot
  dsimp only
  rw [hlatest, hlatest', Option.bind_some, lastLog?, lastLog?, hlogs, List.getLast?_append]
  congr 1
  cases hback : (snapshot.leaving gone).logs.getLast? with
  | some log => rfl
  | none =>
    cases hlog : front.getLast? with
    | none => rfl
    | some log =>
      exact (Frontier.greater?_lastNamed?_of_le
        (hfront log (List.mem_of_getLast? hlog))).symm

end Snapshot

/-! ### A pass that is watched -/

namespace Journal

/-- A pass up to a count of deletions, with failures that are armed before each; answers with what
it removed and what it has still to remove. -/
def collectUpTo (journal : Journal) (arming : Nat → List Fault) (count : Nat) :
    Action JournalError (Medium Memory) (List String × List Segment) := do
  let segments ← journal.plan
  let removed ← removeAllArming arming (segments.take count)
  return (removed, segments.drop count)

/-- A pass goes on from wherever it is watched. -/
theorem map_collectArming_eq_collectUpTo (journal : Journal) (arming : Nat → List Fault)
    (count : Nat) :
    (fun collected => collected.logs ++ collected.checkpoints) <$> journal.collectArming arming =
      (do
        let (removed, rest) ← journal.collectUpTo arming count
        let removed' ← removeAllArming (fun i => arming (count + i)) rest
        return removed ++ removed') := by
  rw [map_collectArming, collectUpTo]
  simp only [bind_assoc, pure_bind, ← removeAllArming_take_drop]

variable {journal : Journal} {files : PathMap Bytes} {latest : Segment} {snapshot : Snapshot}
  {before after medium : Medium Memory} {arming : Nat → List Fault} {count : Nat}

/-- The complete logs of a map of files, in order. -/
def completeIn (journal : Journal) (files : PathMap Bytes) : List Segment :=
  (journal.segmentsIn .log files).filter fun log => !log.isIncomplete

theorem completeIn_of_snapshotOf_eq (h : journal.snapshotOf files = .ok snapshot) :
    journal.completeIn files = snapshot.logs :=
  (lists_of_snapshotOf_eq h).segmentsIn_complete

/-- Everything that is needed is there as before. -/
structure Spares (journal : Journal) (latest : Segment) (before after : Medium Memory) : Prop where
  /-- The latest checkpoint is. -/
  latest_eq : after.storage.files.get? latest.location = before.storage.files.get? latest.location
  /-- The incomplete log is, and so are the complete logs that reach beyond the checkpoint. -/
  log_eq : ∀ log, journal.Has before.storage.files .log log →
    log.stop = unknownStop ∨ latest.stop < log.stop →
    after.storage.files.get? log.location = before.storage.files.get? log.location
  /-- A file that is no segment is. -/
  other_eq : ∀ path, (∀ kind segment, journal.Has before.storage.files kind segment →
    segment.location ≠ path) →
    after.storage.files.get? path = before.storage.files.get? path
  /-- A replay from where the checkpoint stops, or behind it, answers as before. -/
  answers_eq : ∀ n withIncomplete count, latest.stop ≤ n →
    Replay.answersFrom journal n withIncomplete count after =
      Replay.answersFrom journal n withIncomplete count before
  /-- Complete logs that were contiguous are, and a probe finds the same end. -/
  contiguous : Snapshot.areContiguous (journal.completeIn before.storage.files) = true →
    Snapshot.areContiguous (journal.completeIn after.storage.files) = true ∧
    (journal.probe.value? after).map Frontier.lastPersisted =
      (journal.probe.value? before).map Frontier.lastPersisted

theorem value?_probe (journal : Journal) (hcalm : medium.Calm) :
    journal.probe.value? medium = (journal.frontierOf medium.storage.files).toOption := by
  unfold Action.value?
  rcases (ensures_probe_of_calm journal hcalm).ok_or_error with
    ⟨frontier, after, hrun, hfrontier, -⟩ | ⟨e, after, hrun, herror, -⟩
  · rw [hrun, hfrontier]
    rfl
  · rw [hrun, herror]
    rfl

/-- Where the files are the same everything is. -/
theorem spares_of_files_eq (hcalm : before.Calm) (hcalm' : after.Calm)
    (hfiles : after.storage.files = before.storage.files) :
    journal.Spares latest before after := by
  refine ⟨by rw [hfiles], fun _ _ _ => by rw [hfiles], fun _ _ => by rw [hfiles],
    fun n withIncomplete count _ => ?_, fun hcontiguous => ?_⟩
  · exact Replay.answersFrom_congr count hcalm' hcalm (by rw [hfiles]) fun _ _ _ _ => by rw [hfiles]
  · rw [value?_probe journal hcalm', value?_probe journal hcalm, hfiles]
    exact ⟨hcontiguous, rfl⟩

variable {gone front back logs checkpoints : List Segment} {segment : Segment}

/-- Of contiguous logs a part of a pass takes the first ones. -/
theorem exists_front (hsnapshot : journal.snapshotOf files = .ok snapshot)
    (hspent : journal.Spent files latest (snapshot.redundantLogs latest) checkpoints) (k : Nat)
    (hcontiguous : Snapshot.areContiguous snapshot.logs = true) :
    ∃ front, (∀ log ∈ front, log.stop ≤ latest.stop) ∧ snapshot.logs = front ++
      (snapshot.leaving ((snapshot.redundantLogs latest ++ checkpoints).take k)).logs := by
  have hlists : journal.Lists files snapshot.checkpoints snapshot.logs snapshot.current :=
    lists_of_snapshotOf_eq hsnapshot
  have hbounds : ∀ log ∈ snapshot.logs, log.start ≤ log.stop := fun log hlog =>
    ((hlists.mem_complete log).1 hlog).1.places.bounds.1
  obtain ⟨back, hback⟩ := (List.take_prefix k _).trans
    (Snapshot.redundantLogs_prefix latest hcontiguous hbounds)
  refine ⟨(snapshot.redundantLogs latest).take k, fun log hlog => ?_, ?_⟩
  · exact ((hspent.mem_logs log).1 (List.mem_of_mem_take hlog)).2.2
  have hsorted := hlists.complete_sorted
  rw [← hback] at hsorted
  obtain ⟨-, -, hacross⟩ := List.pairwise_append.1 hsorted
  have hleft : ((snapshot.redundantLogs latest).take k ++ back).filter
      (· ∉ (snapshot.redundantLogs latest ++ checkpoints).take k) = back := by
    rw [List.take_append]
    refine Snapshot.filter_notMem_append (fun log hlog => List.mem_append_left _ hlog)
      fun log hlog hgone => ?_
    -- Those behind the first ones are not among them, and are no checkpoints.
    rcases List.mem_append.1 hgone with hfront | hcheckpoint
    · have hprecedes := hacross log hfront log hlog
      rw [Segment.precedes_irrefl] at hprecedes
      cases hprecedes
    · have hcomplete := (hlists.mem_complete log).1 (hback ▸ List.mem_append_right _ hlog)
      exact hcomplete.1.not_checkpoint
        ((hspent.mem_checkpoints log).1 (List.mem_of_mem_take hcheckpoint)).1
  unfold Snapshot.leaving
  dsimp only
  rw [← hback, hleft]

/-- A replay takes logs that reach beyond its start. -/
theorem Lists.of_mem_logsFrom {n : UInt64} {withIncomplete : Bool} {log : Segment}
    (h : journal.Lists files snapshot.checkpoints snapshot.logs snapshot.current)
    (hlog : log ∈ Replay.logsFrom snapshot n withIncomplete) :
    journal.Has files .log log ∧ n < log.stop := by
  obtain ⟨hmem, hstop⟩ := List.mem_filter.1 hlog
  refine ⟨?_, of_decide_eq_true hstop⟩
  cases withIncomplete with
  | true =>
    rcases List.mem_append.1 hmem with hcomplete | hcurrent
    · exact ((h.mem_complete log).1 hcomplete).1
    · exact ((h.mem_current log).1 (Option.mem_toList.1 hcurrent)).1
  | false => exact ((h.mem_complete log).1 hmem).1

/-- Where logs are gone that stop at a number or before, a replay from there answers as before if
the others are as they were. -/
theorem answersFrom_of_leaving {n : UInt64} {withIncomplete : Bool} (hcalm : before.Calm)
    (hcalm' : after.Calm) (hsnapshot : journal.snapshotOf before.storage.files = .ok snapshot)
    (hsnapshot' : journal.snapshotOf after.storage.files = .ok (snapshot.leaving gone))
    (hgone : ∀ log ∈ gone, log ∈ snapshot.logs → log.stop ≤ n)
    (hlog : ∀ log ∈ Replay.logsFrom snapshot n withIncomplete,
      after.storage.files.get? log.location = before.storage.files.get? log.location)
    (count : Nat) :
    Replay.answersFrom journal n withIncomplete count after =
      Replay.answersFrom journal n withIncomplete count before := by
  have hlogsFrom := Snapshot.logsFrom_leaving hgone withIncomplete
  have hopened' : Replay.openedFrom journal n withIncomplete after.storage.files =
      Replay.startAt n (Replay.logsFrom snapshot n withIncomplete) := by
    rw [Replay.openedFrom, hsnapshot', Except.bind, hlogsFrom]
  have hopened : Replay.openedFrom journal n withIncomplete before.storage.files =
      Replay.startAt n (Replay.logsFrom snapshot n withIncomplete) := by
    rw [Replay.openedFrom, hsnapshot, Except.bind]
  refine Replay.answersFrom_congr count hcalm' hcalm (hopened'.trans hopened.symm) ?_
  intro replay hreplay
  rw [hopened'] at hreplay
  rw [Replay.pending_of_startAt hreplay]
  exact hlog

/-- Where logs are gone from the front that the latest checkpoint reaches past, a probe finds the
same end if the current log is as it was. -/
theorem probe_of_leaving (hcalm : before.Calm) (hcalm' : after.Calm)
    (hsnapshot : journal.snapshotOf before.storage.files = .ok snapshot)
    (hsnapshot' : journal.snapshotOf after.storage.files = .ok (snapshot.leaving gone))
    (hlatest : journal.Latest before.storage.files latest)
    (hlatest' : journal.Latest after.storage.files latest)
    (hlogs : snapshot.logs = front ++ (snapshot.leaving gone).logs)
    (hfront : ∀ log ∈ front, log.stop ≤ latest.stop)
    (hcurrent : ∀ log, snapshot.current = some log →
      after.storage.files.get? log.location = before.storage.files.get? log.location) :
    (journal.probe.value? after).map Frontier.lastPersisted =
      (journal.probe.value? before).map Frontier.lastPersisted := by
  have hpersisted := Snapshot.lastPersisted_leaving hlogs hfront
    ((latestCheckpoint?_eq_some_iff hsnapshot).2 hlatest)
    ((latestCheckpoint?_eq_some_iff hsnapshot').2 hlatest')
  rw [value?_probe journal hcalm', value?_probe journal hcalm, frontierOf, frontierOf, hsnapshot',
    hsnapshot]
  have hlast : (snapshot.current.bind fun log => SegmentReader.greatest?
        { segment := log, rest := (after.storage.files.get? log.location).getD [] }) =
      snapshot.current.bind fun log => SegmentReader.greatest?
        { segment := log, rest := (before.storage.files.get? log.location).getD [] } := by
    cases hlog : snapshot.current with
    | none => rfl
    | some log => rw [Option.bind_some, Option.bind_some, hcurrent log hlog]
  show some (Frontier.ofSnapshot (snapshot.leaving gone) _).lastPersisted =
    some (Frontier.ofSnapshot snapshot _).lastPersisted
  rw [← hlast, ← hpersisted]
  rfl

/-- A pass that has removed a part of what is spent, from the front, has spared what is needed. -/
theorem spares_of_take (hcalm : before.Calm) (hcalm' : after.Calm)
    (hsnapshot : journal.snapshotOf before.storage.files = .ok snapshot)
    (hlatest : journal.Latest before.storage.files latest) (k : Nat)
    (hfiles : after.storage.files = before.storage.files.without
      (((snapshot.redundantLogs latest ++ snapshot.redundantCheckpoints latest).take k).map
        Segment.location)) :
    journal.Spares latest before after := by
  have hspent := spent_of_snapshotOf_eq hsnapshot latest
  have hlists : journal.Lists before.storage.files snapshot.checkpoints snapshot.logs
      snapshot.current := lists_of_snapshotOf_eq hsnapshot
  have hfront := exists_front hsnapshot hspent k
  have hmem {segment : Segment} (h : segment ∈ (snapshot.redundantLogs latest ++
      snapshot.redundantCheckpoints latest).take k) : segment ∈ snapshot.redundantLogs latest ++
        snapshot.redundantCheckpoints latest := List.mem_of_mem_take h
  generalize (snapshot.redundantLogs latest ++ snapshot.redundantCheckpoints latest).take k = gone
    at hfiles hfront hmem
  have hplaces : ∀ other ∈ gone, journal.Places other := fun other hother =>
    hspent.places other (hmem hother)
  have hsnapshot' : journal.snapshotOf after.storage.files = .ok (snapshot.leaving gone) := by
    rw [hfiles]
    exact (hlists.without hplaces fun log hcurrent hgone =>
      hspent.current_notMem hlists log hcurrent (hmem hgone)).snapshotOf_eq
  have hlatest' : journal.Latest after.storage.files latest := by
    rw [hfiles]
    exact hlatest.without hplaces fun hgone => hspent.latest_notMem hlatest (hmem hgone)
  have hget {segment : Segment} (hsegment : journal.Places segment) (hnot : segment ∉ gone) :
      after.storage.files.get? segment.location = before.storage.files.get? segment.location := by
    rw [hfiles]
    exact get?_without_of_notMem hplaces hsegment hnot
  have hlog : ∀ log, journal.Has before.storage.files .log log →
      log.stop = unknownStop ∨ latest.stop < log.stop →
      after.storage.files.get? log.location = before.storage.files.get? log.location := by
    intro log hhas hneeded
    refine hget hhas.places fun hgone => ?_
    obtain ⟨hcomplete, hle⟩ := hspent.stop_le (hmem hgone) hhas
    rcases hneeded with hstop | hlt
    · exact hcomplete hstop
    · exact UInt64.not_lt.2 hle hlt
  refine ⟨?_, hlog, fun path hpath => ?_, fun n withIncomplete count hn => ?_,
    fun hcontiguous => ?_⟩
  · exact hget hlatest.has.places fun hgone => hspent.latest_notMem hlatest (hmem hgone)
  · rw [hfiles, PathMap.get?_without, if_neg]
    intro hgone
    obtain ⟨segment, hsegment, hlocation⟩ := List.mem_map.1 hgone
    obtain ⟨kind, hhas⟩ := hspent.has_of_mem (hmem hsegment)
    exact hpath kind segment hhas hlocation
  · refine answersFrom_of_leaving hcalm hcalm' hsnapshot hsnapshot'
      (fun log hgone hmember => ?_) (fun log hmember => ?_) count
    · have hhas := ((hlists.mem_complete log).1 hmember).1
      exact UInt64.le_trans (hspent.stop_le (hmem hgone) hhas).2 hn
    · obtain ⟨hhas, hbeyond⟩ := hlists.of_mem_logsFrom hmember
      exact hlog log hhas (.inr (UInt64.lt_of_le_of_lt hn hbeyond))
  · rw [completeIn_of_snapshotOf_eq hsnapshot] at hcontiguous
    obtain ⟨front, hstops, hlogs⟩ := hfront hcontiguous
    rw [completeIn_of_snapshotOf_eq hsnapshot']
    rw [hlogs] at hcontiguous
    refine ⟨Snapshot.areContiguous_of_append hcontiguous, ?_⟩
    refine probe_of_leaving hcalm hcalm' hsnapshot hsnapshot' hlatest hlatest' hlogs hstops ?_
    intro log hcurrent
    obtain ⟨hhas, hstop⟩ := (hlists.mem_current log).1 hcurrent
    exact hlog log hhas (.inl hstop)

/-- What a pass is about to remove is what its snapshot finds spent. -/
theorem ensures_plan_of_calm (hcalm : medium.Calm)
    (hlatest : journal.Latest medium.storage.files latest) :
    journal.plan.Ensures medium
      (fun segments noted => (∃ snapshot, journal.snapshotOf medium.storage.files = .ok snapshot ∧
        segments = snapshot.redundantLogs latest ++ snapshot.redundantCheckpoints latest) ∧
        Noted medium noted)
      (fun _ noted => Noted medium noted) := by
  rw [plan, Action.ensures_bind]
  refine (ensures_snapshot_of_calm journal hcalm).mono ?_ (fun _ _ h => h.2)
  rintro snapshot noted ⟨hsnapshot, hnoted⟩
  rw [(latestCheckpoint?_eq_some_iff hsnapshot).2 hlatest]
  exact ⟨⟨snapshot, hsnapshot, rfl⟩, hnoted⟩

/-- However far a pass comes, it spares what is needed. -/
theorem ensures_collectUpTo (hcalm : medium.Calm)
    (hlatest : journal.Latest medium.storage.files latest) (arming : Nat → List Fault)
    (count : Nat) :
    (journal.collectUpTo arming count).Ensures medium
      (fun _ after => journal.Spares latest medium after)
      (fun _ after => journal.Spares latest medium after) := by
  rw [collectUpTo, Action.ensures_bind]
  refine (ensures_plan_of_calm hcalm hlatest).mono ?_ fun _ noted hnoted =>
    spares_of_files_eq hcalm (hnoted.calm hcalm) hnoted.files_eq
  rintro _ noted ⟨⟨snapshot, hsnapshot, rfl⟩, hnoted⟩
  have hspent := spent_of_snapshotOf_eq hsnapshot latest
  rw [Action.ensures_bind]
  refine (ensures_removeAllArming (fun segment hsegment => ?_)
    (hspent.apart.sublist (List.take_sublist count _))).mono ?_ ?_
  · obtain ⟨kind, hhas⟩ := hspent.has_of_mem (List.mem_of_mem_take hsegment)
    exact hnoted.files_eq.symm ▸ hhas.present
  · rintro removed after ⟨-, hswept⟩
    have hswept := hswept.of_noted hnoted
    exact spares_of_take hcalm (hswept.callFaults_eq.trans hcalm) hsnapshot hlatest count
      hswept.files_eq
  · -- A deletion that is struck ends the pass earlier.
    rintro e after ⟨i, hstopped⟩
    have hstopped := hstopped.of_noted hnoted
    refine spares_of_take hcalm (hstopped.callFaults_eq.trans hcalm) hsnapshot hlatest
      (min i count) ?_
    rw [hstopped.files_eq, List.take_take]

/-- A pass leaves what it leaves when it is watched to its end. -/
theorem exists_leaves_collectUpTo (journal : Journal) (arming : Nat → List Fault)
    (medium : Medium Memory) :
    ∃ count, (journal.collectArming arming).leaves medium =
      (journal.collectUpTo arming count).leaves medium := by
  rw [← Action.leaves_map fun collected => collected.logs ++ collected.checkpoints,
    map_collectArming, Action.leaves_bind]
  unfold collectUpTo
  simp only [← map_eq_pure_bind, Action.leaves_bind, Action.leaves_map]
  cases journal.plan medium with
  | ok segments noted =>
    refine ⟨segments.length, ?_⟩
    dsimp only
    rw [List.take_length]
  | error e noted => exact ⟨0, rfl⟩

/-- **A pass spares what is needed, at every moment.**  The pass is watched after any count of
deletions, and goes on from there; failures may be armed before each deletion, so that any of them
may stop it.  Then, and also at its end, the latest checkpoint, the incomplete log, the complete
logs that reach beyond the checkpoint, and the files that are no segments hold what they held.  A
replay that is started where the checkpoint stops, or behind it, is started as before, and its
reads answer as before, however many there are.  If the complete logs were contiguous they are, and
a probe finds the same last number. -/
theorem sweep_spares (journal : Journal) (medium : Medium Memory) (latest : Segment)
    (arming : Nat → List Fault) (count : Nat) (hcalm : medium.Calm)
    (hlatest : journal.Latest medium.storage.files latest) :
    journal.collectArming (fun _ => []) = journal.collect ∧
    ((fun collected => collected.logs ++ collected.checkpoints) <$> journal.collectArming arming =
      (do
        let (removed, rest) ← journal.collectUpTo arming count
        let removed' ← removeAllArming (fun i => arming (count + i)) rest
        return removed ++ removed')) ∧
    journal.Spares latest medium ((journal.collectUpTo arming count).leaves medium) ∧
    journal.Spares latest medium ((journal.collectArming arming).leaves medium) := by
  refine ⟨collectArming_nil journal, map_collectArming_eq_collectUpTo journal arming count,
    (ensures_collectUpTo hcalm hlatest arming count).leaves, ?_⟩
  obtain ⟨all, hleaves⟩ := exists_leaves_collectUpTo journal arming medium
  exact hleaves ▸ (ensures_collectUpTo hcalm hlatest arming all).leaves

/-- For example, the first of two logs goes, and what the checkpoint needs is there: a probe finds
the last number of the second. -/
theorem sweep_spares_pair :
    let journal := Journal.rooted "journal" {}
    let log := journal.log 0 5
    let later := journal.log 5 9
    let checkpoint := journal.checkpoint 0 7
    let files := ((PathMap.empty.insert log.location [1]).insert later.location [2]).insert
      checkpoint.location [3]
    let medium : Medium Memory := { storage := { publishing := .onFlush, files } }
    (medium.Calm ∧ journal.Latest files checkpoint) ∧
    Snapshot.areContiguous (journal.completeIn files) = true ∧
    ∃ after, journal.collect medium = .ok ⟨[log.location], []⟩ after ∧
      journal.Spares checkpoint medium after ∧
      (journal.probe.value? after).map Frontier.lastPersisted = some (some 8) := by
  intro journal log later checkpoint files medium
  have hcalm : medium.Calm := rfl
  have hlists : journal.Lists files [checkpoint] [log, later] none :=
    (((lists_of_snapshotOf_eq journal.snapshotOf_empty).insert_complete
      (journal.places_log (by decide) (by decide)) rfl (by decide)
      fun _ hnone => (by cases hnone)).insert_complete
        (journal.places_log (by decide) (by decide)) rfl (by decide)
        fun before hbefore => List.mem_singleton.1 hbefore ▸ by decide).insert_only_checkpoint
          (journal.places_checkpoint (by decide) (by decide)) rfl
  have hsnapshot := hlists.snapshotOf_eq
  have hlatest : journal.Latest files checkpoint :=
    (latestCheckpoint?_eq_some_iff hsnapshot).1 rfl
  have hcontiguous : Snapshot.areContiguous (journal.completeIn files) = true := by
    rw [completeIn_of_snapshotOf_eq hsnapshot]
    decide
  have hlast : (journal.probe.value? medium).map Frontier.lastPersisted = some (some 8) := by
    rw [value?_probe journal hcalm, frontierOf_of_none hsnapshot rfl]
    decide
  have hspent := spent_of_snapshotOf_eq hsnapshot checkpoint
  have hlogs : Snapshot.redundantLogs ⟨[checkpoint], [log, later], none⟩ checkpoint = [log] := by
    decide
  have hcheckpoints :
      Snapshot.redundantCheckpoints ⟨[checkpoint], [log, later], none⟩ checkpoint = [] := by
    decide
  rw [hlogs, hcheckpoints] at hspent
  refine ⟨⟨hcalm, hlatest⟩, hcontiguous, ?_⟩
  have hpass : (journal.collectArming fun _ => []).Ensures medium _ _ :=
    ensures_collectArming hcalm hsnapshot hlatest hspent
  obtain ⟨_, after, hrun, rfl, -⟩ := hpass.exists_ok fun e after ⟨i, hstopped⟩ => by
    rcases hstopped.struck with hfault | ⟨_, -, hfault⟩ <;> cases hfault
  obtain ⟨hcollect, -, -, hspares⟩ :=
    sweep_spares journal medium checkpoint (fun _ => []) 0 hcalm hlatest
  rw [Action.leaves, hrun] at hspares
  exact ⟨after, hcollect ▸ hrun, hspares, (hspares.contiguous hcontiguous).2.trans hlast⟩

end Journal

end SegmentedJournal
