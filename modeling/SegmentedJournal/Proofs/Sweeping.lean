import SegmentedJournal.Proofs.Collecting
import SegmentedJournal.Proofs.Striking
import SegmentedJournal.Proofs.Surveys
/-!
# What a pass of the collector removes

The latest checkpoint is the one with the greatest stop, of those the one with the greatest start,
and of those the last one (`Journal.Latest`); it is what a snapshot says
(`Journal.latestCheckpoint?_eq_some_iff`).  The complete logs that stop where it does or before,
and all other checkpoints, are spent (`Journal.Spent`).

A pass removes what is spent, one file after the other, until a deletion fails.  Failures may be
armed before each deletion (`Journal.collectArming`); without them this is the pass itself
(`Journal.collectArming_nil`).  Which files are gone then is said by the place of the first deletion
that is struck (`Journal.sweep_exact`).
-/

namespace SegmentedJournal

/-! ### The latest checkpoint -/

/-- The segment `a` is behind `b`: by its stop, then by its start, then by its location. -/
def Segment.Under (a b : Segment) : Prop :=
  a.stop < b.stop ∨ a.stop = b.stop ∧
    (a.start < b.start ∨ a.start = b.start ∧ a.location < b.location)

namespace Segment.Under

variable {a b c : Segment}

theorem trans (h : a.Under b) (h' : b.Under c) : a.Under c := by
  rcases h with hstop | ⟨hstop, hstart⟩
  · rcases h' with hstop' | ⟨hstop', -⟩
    · exact .inl (UInt64.lt_trans hstop hstop')
    · exact .inl (hstop' ▸ hstop)
  · rcases h' with hstop' | ⟨hstop', hstart'⟩
    · exact .inl (hstop ▸ hstop')
    · refine .inr ⟨hstop.trans hstop', ?_⟩
      rcases hstart with hlt | ⟨heq, hlocation⟩
      · rcases hstart' with hlt' | ⟨heq', -⟩
        · exact .inl (UInt64.lt_trans hlt hlt')
        · exact .inl (heq' ▸ hlt)
      · rcases hstart' with hlt' | ⟨heq', hlocation'⟩
        · exact .inl (heq ▸ hlt')
        · exact .inr ⟨heq.trans heq', String.lt_trans hlocation hlocation'⟩

theorem irrefl (a : Segment) : ¬a.Under a := by
  rintro (hlt | ⟨-, hlt | ⟨-, hlt⟩⟩)
  · exact UInt64.lt_irrefl _ hlt
  · exact UInt64.lt_irrefl _ hlt
  · exact String.lt_irrefl _ hlt

theorem stop_le (h : a.Under b) : a.stop ≤ b.stop := by
  rcases h with hlt | ⟨heq, -⟩
  · exact UInt64.le_of_lt hlt
  · exact heq ▸ UInt64.le_refl _

end Segment.Under

namespace Snapshot

/-- The checkpoint that a snapshot prefers is the one the other is behind. -/
theorem further_of_precedes {known checkpoint : Segment} (h : known.precedes checkpoint = true) :
    further (some known) checkpoint = some known ∧ checkpoint.Under known ∨
      further (some known) checkpoint = some checkpoint ∧ known.Under checkpoint := by
  unfold further
  dsimp only
  by_cases hbeyond : reachesBeyond known checkpoint = true
  · rw [if_pos hbeyond]
    refine .inl ⟨rfl, ?_⟩
    simp only [reachesBeyond, Bool.or_eq_true, Bool.and_eq_true, decide_eq_true_eq] at hbeyond
    exact hbeyond.imp id fun hsame => ⟨hsame.1.symm, .inl hsame.2⟩
  · rw [if_neg hbeyond]
    refine .inr ⟨rfl, ?_⟩
    simp only [reachesBeyond, Bool.or_eq_true, Bool.and_eq_true, decide_eq_true_eq, not_or,
      not_and, UInt64.not_lt] at hbeyond
    obtain ⟨hstop, hstart⟩ := hbeyond
    rcases UInt64.lt_or_eq_of_le hstop with hlt | heq
    · exact .inl hlt
    · refine .inr ⟨heq, ?_⟩
      -- Of one range the two differ in their locations only, and those are in order.
      rcases UInt64.lt_or_eq_of_le (hstart heq) with hlt | hsame
      · exact .inl hlt
      · rcases Segment.precedes_iff.1 h with hlt | ⟨-, hlt | ⟨-, hlocation⟩⟩
        · exact absurd hsame (UInt64.ne_of_lt hlt)
        · exact absurd heq (UInt64.ne_of_lt hlt)
        · exact .inr ⟨hsame, hlocation⟩

/-- Of checkpoints in order the one that is kept in the end has the others behind it. -/
theorem foldl_further_of_sorted {checkpoints : List Segment} {known : Segment}
    (h : (known :: checkpoints).Pairwise fun a b => a.precedes b = true) :
    ∃ latest ∈ known :: checkpoints, checkpoints.foldl further (some known) = some latest ∧
      ∀ other ∈ known :: checkpoints, other ≠ latest → other.Under latest := by
  induction checkpoints generalizing known with
  | nil =>
    refine ⟨known, List.mem_cons_self, rfl, fun other hother hne => ?_⟩
    exact absurd (List.mem_singleton.1 hother) hne
  | cons checkpoint rest ih =>
    obtain ⟨hknown, hcheckpoint, hrest⟩ := List.pairwise_cons.1 h |>.imp_right List.pairwise_cons.1
    rw [List.foldl_cons]
    rcases further_of_precedes (hknown checkpoint List.mem_cons_self) with
      ⟨hfurther, hunder⟩ | ⟨hfurther, hunder⟩
    · obtain ⟨latest, hmem, hfold, hgreatest⟩ := ih (List.pairwise_cons.2
        ⟨fun other hother => hknown other (List.mem_cons_of_mem _ hother), hrest⟩)
      refine ⟨latest, ?_, by rw [hfurther, hfold], fun other hother hne => ?_⟩
      · rcases List.mem_cons.1 hmem with rfl | hmem
        · exact List.mem_cons_self
        · exact List.mem_cons_of_mem _ (List.mem_cons_of_mem _ hmem)
      · rcases List.mem_cons.1 hother with rfl | hother
        · exact hgreatest _ List.mem_cons_self hne
        · rcases List.mem_cons.1 hother with rfl | hother
          · by_cases heq : known = latest
            · exact heq ▸ hunder
            · exact hunder.trans (hgreatest known List.mem_cons_self heq)
          · exact hgreatest other (List.mem_cons_of_mem _ hother) hne
    · obtain ⟨latest, hmem, hfold, hgreatest⟩ := ih (List.pairwise_cons.2 ⟨hcheckpoint, hrest⟩)
      refine ⟨latest, List.mem_cons_of_mem _ hmem, by rw [hfurther, hfold],
        fun other hother hne => ?_⟩
      rcases List.mem_cons.1 hother with rfl | hother
      · by_cases heq : checkpoint = latest
        · exact heq ▸ hunder
        · exact hunder.trans (hgreatest checkpoint List.mem_cons_self heq)
      · exact hgreatest other hother hne

end Snapshot

namespace Journal

variable {journal : Journal} {files : PathMap Bytes} {latest : Segment} {snapshot : Snapshot}

/-- The checkpoint that every other one is behind. -/
structure Latest (journal : Journal) (files : PathMap Bytes) (latest : Segment) : Prop where
  /-- It is a checkpoint of the journal. -/
  has : journal.Has files .checkpoint latest
  /-- Every other is behind it. -/
  under : ∀ other, journal.Has files .checkpoint other → other ≠ latest → other.Under latest

theorem Latest.unique {latest' : Segment} (h : journal.Latest files latest)
    (h' : journal.Latest files latest') : latest = latest' := by
  refine Decidable.byContradiction fun hne => ?_
  exact Segment.Under.irrefl latest ((h'.under latest h.has hne).trans
    (h.under latest' h'.has (Ne.symm hne)))

/-- Where there are checkpoints the latest is one of those in a snapshot. -/
theorem latestCheckpoint?_eq_some_iff (h : journal.snapshotOf files = .ok snapshot) :
    snapshot.latestCheckpoint? = some latest ↔ journal.Latest files latest := by
  have hlists : journal.Lists files snapshot.checkpoints snapshot.logs snapshot.current :=
    lists_of_snapshotOf_eq h
  have hfound : ∀ latest', snapshot.latestCheckpoint? = some latest' →
      journal.Latest files latest' := by
    intro latest' hlatest
    rw [Snapshot.latestCheckpoint?_eq] at hlatest
    cases hcheckpoints : snapshot.checkpoints with
    | nil =>
      rw [hcheckpoints] at hlatest
      cases hlatest
    | cons first rest =>
      have hsorted := hlists.checkpoints_sorted
      rw [hcheckpoints] at hsorted hlatest
      obtain ⟨found, hmem, hfold, hunder⟩ := Snapshot.foldl_further_of_sorted hsorted
      obtain rfl := Option.some.inj (hfold.symm.trans hlatest)
      rw [← hcheckpoints] at hmem hunder
      exact ⟨(hlists.mem_checkpoints found).1 hmem,
        fun other hother => hunder other ((hlists.mem_checkpoints other).2 hother)⟩
  refine ⟨hfound latest, fun hlatest => ?_⟩
  have hne : snapshot.checkpoints ≠ [] :=
    List.ne_nil_of_mem ((hlists.mem_checkpoints latest).2 hlatest.has)
  obtain ⟨found, hsome, -⟩ := Snapshot.latestCheckpoint?_of_ne_nil hne
  rw [hsome, (hfound found hsome).unique hlatest]

/-! ### What is spent -/

variable {medium after : Medium Memory} {arming : Nat → List Fault}
  {segments gone logs checkpoints : List Segment} {segment : Segment}

/-- The complete logs that stop where a checkpoint does or before, and the other checkpoints. -/
structure Spent (journal : Journal) (files : PathMap Bytes) (latest : Segment)
    (logs checkpoints : List Segment) : Prop where
  /-- The logs are in order. -/
  logs_sorted : logs.Pairwise fun a b => a.precedes b = true
  /-- They are the complete ones that stop so early. -/
  mem_logs : ∀ segment, segment ∈ logs ↔ journal.Has files .log segment ∧
    segment.stop ≠ unknownStop ∧ segment.stop ≤ latest.stop
  /-- The checkpoints are in order. -/
  checkpoints_sorted : checkpoints.Pairwise fun a b => a.precedes b = true
  /-- They are all but the one. -/
  mem_checkpoints : ∀ segment, segment ∈ checkpoints ↔
    journal.Has files .checkpoint segment ∧ segment ≠ latest

/-- A snapshot finds what is spent. -/
theorem spent_of_snapshotOf_eq (h : journal.snapshotOf files = .ok snapshot) (latest : Segment) :
    journal.Spent files latest (snapshot.redundantLogs latest)
      (snapshot.redundantCheckpoints latest) := by
  have hlists : journal.Lists files snapshot.checkpoints snapshot.logs snapshot.current :=
    lists_of_snapshotOf_eq h
  refine ⟨hlists.complete_sorted.filter _, fun segment => ?_,
    hlists.checkpoints_sorted.filter _, fun segment => ?_⟩
  · rw [Snapshot.redundantLogs, List.mem_filter, hlists.mem_complete, decide_eq_true_eq, and_assoc]
  · rw [Snapshot.redundantCheckpoints, List.mem_filter, hlists.mem_checkpoints, decide_eq_true_eq]

theorem Spent.unique {logs' checkpoints' : List Segment}
    (h : journal.Spent files latest logs checkpoints)
    (h' : journal.Spent files latest logs' checkpoints') :
    logs = logs' ∧ checkpoints = checkpoints' :=
  ⟨eq_of_mem_iff h.logs_sorted h'.logs_sorted fun segment => by rw [h.mem_logs, h'.mem_logs],
    eq_of_mem_iff h.checkpoints_sorted h'.checkpoints_sorted fun segment => by
      rw [h.mem_checkpoints, h'.mem_checkpoints]⟩

/-- A log is no checkpoint. -/
theorem Has.not_checkpoint {files' : PathMap Bytes} (h : journal.Has files .log segment) :
    ¬journal.Has files' .checkpoint segment := fun h' => by
  cases h.kind_eq.symm.trans h'.kind_eq

theorem Spent.has_of_mem {segment : Segment} (h : journal.Spent files latest logs checkpoints)
    (hsegment : segment ∈ logs ++ checkpoints) : ∃ kind, journal.Has files kind segment := by
  rcases List.mem_append.1 hsegment with hlog | hcheckpoint
  · exact ⟨.log, ((h.mem_logs segment).1 hlog).1⟩
  · exact ⟨.checkpoint, ((h.mem_checkpoints segment).1 hcheckpoint).1⟩

/-- No two of the segments have one file. -/
theorem Spent.apart (h : journal.Spent files latest logs checkpoints) :
    (logs ++ checkpoints).Pairwise fun a b => a.location ≠ b.location := by
  have hne {a b : Segment} {kind kind' : SegmentKind} (ha : journal.Has files kind a)
      (hb : journal.Has files kind' b) (hab : a.precedes b = true) : a.location ≠ b.location := by
    refine ha.ne_location hb fun heq => ?_
    rw [heq, Segment.precedes_irrefl] at hab
    cases hab
  refine List.pairwise_append.2 ⟨?_, ?_, fun a ha b hb => ?_⟩
  · exact h.logs_sorted.imp_of_mem fun ha hb hab =>
      hne ((h.mem_logs _).1 ha).1 ((h.mem_logs _).1 hb).1 hab
  · exact h.checkpoints_sorted.imp_of_mem fun ha hb hab =>
      hne ((h.mem_checkpoints _).1 ha).1 ((h.mem_checkpoints _).1 hb).1 hab
  · have ha := ((h.mem_logs a).1 ha).1
    have hb := ((h.mem_checkpoints b).1 hb).1
    exact ha.ne_location hb fun heq => ha.not_checkpoint (heq ▸ hb)

/-- A log that is spent is complete and stops where the checkpoint does or before. -/
theorem Spent.stop_le (h : journal.Spent files latest logs checkpoints)
    (hsegment : segment ∈ logs ++ checkpoints) (hlog : journal.Has files .log segment) :
    segment.stop ≠ unknownStop ∧ segment.stop ≤ latest.stop := by
  rcases List.mem_append.1 hsegment with hmem | hcheckpoint
  · exact ((h.mem_logs segment).1 hmem).2
  · exact absurd ((h.mem_checkpoints segment).1 hcheckpoint).1 hlog.not_checkpoint

theorem Spent.places (h : journal.Spent files latest logs checkpoints) :
    ∀ segment ∈ logs ++ checkpoints, journal.Places segment := by
  intro segment hsegment
  obtain ⟨kind, hhas⟩ := h.has_of_mem hsegment
  exact hhas.places

/-! ### A pass whose deletions fail -/

/-- A pass, with failures that are armed before each deletion. -/
def collectArming (journal : Journal) (arming : Nat → List Fault) :
    Action JournalError (Medium Memory) Collected := do
  let snapshot ← journal.snapshot
  match snapshot.latestCheckpoint? with
  | none => return {}
  | some latest =>
    let redundant := snapshot.redundantLogs latest
    let logs ← removeAllArming arming redundant
    let checkpoints ← removeAllArming (fun i => arming (redundant.length + i))
      (snapshot.redundantCheckpoints latest)
    return { logs, checkpoints }

theorem collectArming_nil (journal : Journal) :
    journal.collectArming (fun _ => []) = journal.collect := by
  unfold collectArming collect
  congr 1
  funext snapshot
  cases snapshot.latestCheckpoint? with
  | none => rfl
  | some latest => simp only [removeAllArming_nil]

theorem map_collectArming (journal : Journal) (arming : Nat → List Fault) :
    (fun collected => collected.logs ++ collected.checkpoints) <$> journal.collectArming arming =
      journal.plan >>= removeAllArming arming := by
  unfold collectArming plan
  simp only [map_eq_pure_bind, bind_assoc]
  congr 1
  funext snapshot
  cases snapshot.latestCheckpoint? with
  | none => simp [removeAllArming]
  | some latest => simp [removeAllArming_append]

/-- A pass removes what is spent, up to the first deletion that is struck. -/
theorem ensures_collectArming (hcalm : medium.Calm)
    (hsnapshot : journal.snapshotOf medium.storage.files = .ok snapshot)
    (hlatest : journal.Latest medium.storage.files latest)
    (hspent : journal.Spent medium.storage.files latest logs checkpoints) :
    (journal.collectArming arming).Ensures medium
      (fun collected after => collected = ⟨logs.map Segment.location,
        checkpoints.map Segment.location⟩ ∧ Swept medium arming (logs ++ checkpoints) after)
      (fun e after => ∃ i, Stopped medium arming (logs ++ checkpoints) i e after) := by
  have hpresent : ∀ segment ∈ logs ++ checkpoints,
      medium.storage.files.contains segment.location = true := by
    intro segment hsegment
    obtain ⟨kind, hhas⟩ := hspent.has_of_mem hsegment
    exact hhas.present
  obtain ⟨hlogs, hcheckpoints, hacross⟩ := List.pairwise_append.1 hspent.apart
  obtain ⟨rfl, rfl⟩ := hspent.unique (spent_of_snapshotOf_eq hsnapshot latest)
  rw [collectArming, Action.ensures_bind]
  refine (ensures_snapshot_of_calm journal hcalm).mono ?_ ?_
  · rintro found noted ⟨hfound, hnoted⟩
    obtain rfl := Except.ok.inj (hfound.symm.trans hsnapshot)
    rw [(latestCheckpoint?_eq_some_iff hsnapshot).2 hlatest]
    dsimp only
    rw [Action.ensures_bind]
    refine (ensures_removeAllArming (fun segment hsegment => ?_) hlogs).mono ?_ ?_
    · rw [hnoted.files_eq]
      exact hpresent segment (List.mem_append_left _ hsegment)
    · rintro _ middle ⟨rfl, hswept⟩
      have hswept := hswept.of_noted hnoted
      rw [Action.ensures_bind]
      refine (ensures_removeAllArming (fun segment hsegment => ?_) hcheckpoints).mono ?_ ?_
      · rw [hswept.files_eq, PathMap.contains_without, List.mem_map]
        refine ⟨?_, hpresent segment (List.mem_append_right _ hsegment)⟩
        rintro ⟨log, hlog, heq⟩
        exact hacross log hlog segment hsegment heq
      · rintro _ after ⟨rfl, hswept'⟩
        exact ⟨rfl, hswept.append hswept'⟩
      · rintro e after ⟨i, hstopped⟩
        exact ⟨_, hswept.stopped hstopped⟩
    · rintro e after ⟨i, hstopped⟩
      exact ⟨i, (hstopped.of_noted hnoted).append _⟩
  · rintro e after ⟨herror, -⟩
    rw [hsnapshot] at herror
    cases herror

/-! ### Files that were swept -/

theorem has_without_iff {kind : SegmentKind} {segment : Segment}
    (hplaces : ∀ other ∈ segments, journal.Places other) :
    journal.Has (files.without (segments.map Segment.location)) kind segment ↔
      journal.Has files kind segment ∧ segment ∉ segments := by
  constructor
  · rintro ⟨hsegment, hkind, hpresent⟩
    obtain ⟨hnot, hpresent⟩ := PathMap.contains_without.1 hpresent
    exact ⟨⟨hsegment, hkind, hpresent⟩, fun hmem => hnot (List.mem_map_of_mem hmem)⟩
  · rintro ⟨⟨hsegment, hkind, hpresent⟩, hnot⟩
    refine ⟨hsegment, hkind, PathMap.contains_without.2 ⟨fun hmem => ?_, hpresent⟩⟩
    obtain ⟨other, hother, hlocation⟩ := List.mem_map.1 hmem
    exact hnot ((hplaces other hother).eq_of_location hsegment hlocation ▸ hother)

/-- A segment that is not among those removed has its file as before. -/
theorem get?_without_of_notMem (hplaces : ∀ other ∈ gone, journal.Places other)
    (hsegment : journal.Places segment) (hnot : segment ∉ gone) :
    (files.without (gone.map Segment.location)).get? segment.location =
      files.get? segment.location := by
  rw [PathMap.get?_without, if_neg]
  intro hmem
  obtain ⟨other, hother, hlocation⟩ := List.mem_map.1 hmem
  exact hnot ((hplaces other hother).eq_of_location hsegment hlocation ▸ hother)

/-- A journal without some segments, none of which is the current log. -/
theorem Lists.without {complete : List Segment} {current : Option Segment}
    (h : journal.Lists files checkpoints complete current)
    (hplaces : ∀ other ∈ segments, journal.Places other)
    (hcurrent : ∀ log, current = some log → log ∉ segments) :
    journal.Lists (files.without (segments.map Segment.location))
      (checkpoints.filter (· ∉ segments)) (complete.filter (· ∉ segments)) current := by
  refine ⟨h.checkpoints_sorted.filter _, fun segment => ?_, h.complete_sorted.filter _,
    fun segment => ?_, fun segment => ?_⟩
  · rw [List.mem_filter, h.mem_checkpoints, has_without_iff hplaces, decide_eq_true_eq]
  · rw [List.mem_filter, h.mem_complete, has_without_iff hplaces, decide_eq_true_eq, and_right_comm]
  · rw [has_without_iff hplaces, and_right_comm, ← h.mem_current]
    exact (and_iff_left_of_imp (hcurrent segment)).symm

/-- The current log is not spent. -/
theorem Spent.current_notMem {complete : List Segment} {current : Option Segment}
    {all : List Segment} (h : journal.Spent files latest logs checkpoints)
    (hlists : journal.Lists files all complete current) :
    ∀ log, current = some log → log ∉ logs ++ checkpoints := by
  intro log hcurrent hmem
  obtain ⟨hhas, hstop⟩ := (hlists.mem_current log).1 hcurrent
  exact (h.stop_le hmem hhas).1 hstop

/-- The latest checkpoint is not spent. -/
theorem Spent.latest_notMem (h : journal.Spent files latest logs checkpoints)
    (hlatest : journal.Latest files latest) : latest ∉ logs ++ checkpoints := by
  intro hmem
  rcases List.mem_append.1 hmem with hlog | hcheckpoint
  · exact ((h.mem_logs latest).1 hlog).1.not_checkpoint hlatest.has
  · exact ((h.mem_checkpoints latest).1 hcheckpoint).2 rfl

/-- The latest checkpoint stays the latest while it is there. -/
theorem Latest.without (h : journal.Latest files latest)
    (hplaces : ∀ other ∈ segments, journal.Places other) (hlatest : latest ∉ segments) :
    journal.Latest (files.without (segments.map Segment.location)) latest :=
  ⟨(has_without_iff hplaces).2 ⟨h.has, hlatest⟩,
    fun other hother => h.under other ((has_without_iff hplaces).1 hother).1⟩

/-- Where what is spent is gone nothing is. -/
theorem Spent.without (h : journal.Spent files latest logs checkpoints) :
    journal.Spent (files.without ((logs ++ checkpoints).map Segment.location)) latest [] [] := by
  refine ⟨.nil, fun segment => ?_, .nil, fun segment => ?_⟩
  · rw [has_without_iff h.places]
    refine ⟨fun hnone => (by cases hnone), fun ⟨⟨hhas, hnot⟩, hstop⟩ => ?_⟩
    exact absurd (List.mem_append_left _ ((h.mem_logs segment).2 ⟨hhas, hstop⟩)) hnot
  · rw [has_without_iff h.places]
    refine ⟨fun hnone => (by cases hnone), fun ⟨⟨hhas, hnot⟩, hne⟩ => ?_⟩
    exact absurd (List.mem_append_right _ ((h.mem_checkpoints segment).2 ⟨hhas, hne⟩)) hnot

/-! ### A pass -/

/-- Files with one incomplete log at most make a snapshot. -/
theorem exists_snapshotOf (h : ∀ a b, journal.Has files .log a → a.stop = unknownStop →
    journal.Has files .log b → b.stop = unknownStop → a = b) :
    ∃ snapshot, journal.snapshotOf files = .ok snapshot := by
  rcases snapshotOf_cases journal files with hsnapshot | ⟨⟨a, b, hne, ha, hb⟩, -⟩
  · exact hsnapshot
  · rw [mem_incompleteIn] at ha hb
    exact absurd (h a b ha.1 ha.2 hb.1 hb.2) hne

/-- Without a checkpoint a pass does nothing. -/
theorem ensures_collectArming_of_none (hcalm : medium.Calm)
    (hsnapshot : journal.snapshotOf medium.storage.files = .ok snapshot)
    (hnone : ∀ checkpoint, ¬journal.Has medium.storage.files .checkpoint checkpoint) :
    (journal.collectArming arming).Ensures medium
      (fun collected after => collected = {} ∧ after.storage = medium.storage)
      (fun _ _ => False) := by
  rw [collectArming, Action.ensures_bind]
  refine (ensures_snapshot_of_calm journal hcalm).mono ?_ ?_
  · rintro found noted ⟨hfound, hnoted⟩
    cases hlatest : found.latestCheckpoint? with
    | none => exact ⟨rfl, hnoted.storage_eq⟩
    | some latest =>
      exact absurd ((latestCheckpoint?_eq_some_iff hfound).1 hlatest).has (hnone latest)
  · rintro e after ⟨herror, -⟩
    rw [hsnapshot] at herror
    cases herror

/-- Where what is spent is gone a pass does nothing, whatever is armed. -/
theorem ensures_collectArming_again (hcalm : medium.Calm)
    (hsnapshot : journal.snapshotOf medium.storage.files = .ok snapshot)
    (hlatest : journal.Latest medium.storage.files latest)
    (hspent : journal.Spent medium.storage.files latest logs checkpoints)
    (hfiles : after.storage.files =
      medium.storage.files.without ((logs ++ checkpoints).map Segment.location))
    (hcalls : after.callFaults = medium.callFaults) (arming : Nat → List Fault) :
    ∃ later, journal.collectArming arming after = .ok {} later ∧
      later.storage.files = after.storage.files := by
  have hlists : journal.Lists medium.storage.files snapshot.checkpoints snapshot.logs
      snapshot.current := lists_of_snapshotOf_eq hsnapshot
  have hlatest := hlatest.without hspent.places (hspent.latest_notMem hlatest)
  have hsnapshot := (hlists.without hspent.places (hspent.current_notMem hlists)).snapshotOf_eq
  have hspent := hspent.without
  rw [← hfiles] at hlatest hsnapshot hspent
  have hpass : (journal.collectArming arming).Ensures after _ _ :=
    ensures_collectArming (hcalls.trans hcalm) hsnapshot hlatest hspent
  obtain ⟨_, later, hrun, rfl, hswept⟩ := hpass.exists_ok fun e later ⟨i, hstopped⟩ => by
    obtain ⟨segment, hsegment, -⟩ := hstopped.error_eq
    cases hsegment
  exact ⟨later, hrun, hswept.files_eq.trans (PathMap.without_nil _)⟩

/-- **A pass removes exactly what is spent, and says so.**  Where at most one log is incomplete, a
pass without a checkpoint changes nothing.  Otherwise it is the latest checkpoint that decides: if
no deletion is struck, the files of the complete logs that it reaches past and of all other
checkpoints are gone and no others, the report has the locations of these, each in order, and a
pass that follows removes nothing.  If the deletion numbered `i` is the first that is struck, the
pass answers with its error, and the files before it are gone and no others. -/
theorem sweep_exact (journal : Journal) (medium : Medium Memory) (arming : Nat → List Fault)
    (hcalm : medium.Calm)
    (hone : ∀ a b, journal.Has medium.storage.files .log a → a.stop = unknownStop →
      journal.Has medium.storage.files .log b → b.stop = unknownStop → a = b) :
    journal.collectArming (fun _ => []) = journal.collect ∧
    ((∀ checkpoint, ¬journal.Has medium.storage.files .checkpoint checkpoint) →
      ∃ after, journal.collectArming arming medium = .ok {} after ∧
        after.storage = medium.storage) ∧
    ((∃ checkpoint, journal.Has medium.storage.files .checkpoint checkpoint) →
      ∃ latest logs checkpoints, journal.Latest medium.storage.files latest ∧
        journal.Spent medium.storage.files latest logs checkpoints ∧
        ((∀ i < (logs ++ checkpoints).length, ¬medium.Struck arming i) →
          ∃ after, journal.collectArming arming medium =
              .ok ⟨logs.map Segment.location, checkpoints.map Segment.location⟩ after ∧
            after.storage.files =
              medium.storage.files.without ((logs ++ checkpoints).map Segment.location) ∧
            ∀ arming', ∃ later, journal.collectArming arming' after = .ok {} later ∧
              later.storage.files = after.storage.files) ∧
        ∀ i segment, (logs ++ checkpoints)[i]? = some segment → medium.Struck arming i →
          (∀ j < i, ¬medium.Struck arming j) →
          ∃ after, journal.collectArming arming medium = .error (.error
              (.medium segment.location (.injected "delete" segment.location))) after ∧
            after.storage.files = medium.storage.files.without
              (((logs ++ checkpoints).take i).map Segment.location)) := by
  obtain ⟨snapshot, hsnapshot⟩ := exists_snapshotOf hone
  refine ⟨collectArming_nil journal, fun hnone => ?_, fun ⟨checkpoint, hhas⟩ => ?_⟩
  · obtain ⟨_, after, hrun, rfl, hstorage⟩ :=
      (ensures_collectArming_of_none hcalm hsnapshot hnone).exists_ok fun _ _ h => h
    exact ⟨after, hrun, hstorage⟩
  have hlists : journal.Lists medium.storage.files snapshot.checkpoints snapshot.logs
      snapshot.current := lists_of_snapshotOf_eq hsnapshot
  obtain ⟨latest, hsome, -⟩ := Snapshot.latestCheckpoint?_of_ne_nil
    (List.ne_nil_of_mem ((hlists.mem_checkpoints checkpoint).2 hhas))
  have hlatest := (latestCheckpoint?_eq_some_iff hsnapshot).1 hsome
  have hspent := spent_of_snapshotOf_eq hsnapshot latest
  refine ⟨latest, _, _, hlatest, hspent, fun hunstruck => ?_, ?_⟩
  · rcases (ensures_collectArming hcalm hsnapshot hlatest hspent).ok_or_error with
      ⟨_, after, hrun, rfl, hswept⟩ | ⟨e, after, -, i, hstopped⟩
    · exact ⟨after, hrun, hswept.files_eq, ensures_collectArming_again hcalm hsnapshot hlatest
        hspent hswept.files_eq hswept.callFaults_eq⟩
    · obtain ⟨segment, hsegment, -⟩ := hstopped.error_eq
      exact absurd hstopped.struck (hunstruck i (List.getElem?_eq_some_iff.1 hsegment).1)
  · intro i segment hsegment hstruck hbefore
    rcases (ensures_collectArming hcalm hsnapshot hlatest hspent).ok_or_error with
      ⟨_, after, -, -, hswept⟩ | ⟨e, after, hrun, k, hstopped⟩
    · exact absurd hstruck (hswept.unstruck i (List.getElem?_eq_some_iff.1 hsegment).1)
    · -- Both are the first deletion that is struck.
      have hki : k = i := by
        rcases Nat.lt_trichotomy k i with hlt | heq | hlt
        · exact absurd hstopped.struck (hbefore k hlt)
        · exact heq
        · exact absurd hstruck (hstopped.unstruck i hlt)
      subst hki
      obtain ⟨other, hother, rfl⟩ := hstopped.error_eq
      obtain rfl := Option.some.inj (hother.symm.trans hsegment)
      exact ⟨after, hrun, hstopped.files_eq⟩

/-- For example, one log goes, and the only checkpoint stays; a failure that is armed before the
deletion keeps both. -/
theorem sweep_exact_single :
    let journal := Journal.rooted "journal" {}
    let log := journal.log 0 5
    let checkpoint := journal.checkpoint 0 7
    let files := (PathMap.empty.insert log.location [1]).insert checkpoint.location [2]
    let medium : Medium Memory := { storage := { publishing := .onFlush, files } }
    (medium.Calm ∧ ∀ a b, journal.Has files .log a → a.stop = unknownStop →
      journal.Has files .log b → b.stop = unknownStop → a = b) ∧
    (∃ after, journal.collect medium = .ok ⟨[log.location], []⟩ after ∧
      after.storage.files = files.without [log.location]) ∧
    ∃ after, journal.collectArming (fun _ => [.delete]) medium =
        .error (.error (.medium log.location (.injected "delete" log.location))) after ∧
      after.storage.files = files := by
  intro journal log checkpoint files medium
  have hlists : journal.Lists files [checkpoint] [log] none :=
    ((lists_of_snapshotOf_eq journal.snapshotOf_empty).insert_complete
      (journal.places_log (by decide) (by decide)) rfl (by decide)
      fun _ hnone => (by cases hnone)).insert_only_checkpoint
        (journal.places_checkpoint (by decide) (by decide)) rfl
  have hone : ∀ a b, journal.Has files .log a → a.stop = unknownStop →
      journal.Has files .log b → b.stop = unknownStop → a = b := fun a _ ha hstop _ _ => by
    have hcurrent := (hlists.mem_current a).2 ⟨ha, hstop⟩
    cases hcurrent
  have hhas := (hlists.mem_checkpoints checkpoint).1 (List.mem_singleton_self _)
  have hlatest : ∀ latest, journal.Latest files latest → latest = checkpoint := fun latest h =>
    List.mem_singleton.1 ((hlists.mem_checkpoints latest).2 h.has)
  have hspent : journal.Spent files checkpoint [log] [] := by
    have hspent := spent_of_snapshotOf_eq hlists.snapshotOf_eq checkpoint
    have hlogs : Snapshot.redundantLogs ⟨[checkpoint], [log], none⟩ checkpoint = [log] := by decide
    have hcheckpoints : Snapshot.redundantCheckpoints ⟨[checkpoint], [log], none⟩ checkpoint = [] := by
      decide
    rwa [hlogs, hcheckpoints] at hspent
  refine ⟨⟨rfl, hone⟩, ?_, ?_⟩
  · obtain ⟨hcollect, -, hsweep⟩ := sweep_exact journal medium (fun _ => []) rfl hone
    obtain ⟨latest, logs, checkpoints, h, hspent', hsound, -⟩ := hsweep ⟨checkpoint, hhas⟩
    obtain rfl := hlatest latest h
    obtain ⟨rfl, rfl⟩ := hspent'.unique hspent
    obtain ⟨after, hrun, hfiles, -⟩ := hsound fun i _ hstruck => by
      rcases hstruck with hfault | ⟨_, -, hfault⟩ <;> cases hfault
    exact ⟨after, hcollect ▸ hrun, hfiles⟩
  · obtain ⟨-, -, hsweep⟩ := sweep_exact journal medium (fun _ => [.delete]) rfl hone
    obtain ⟨latest, logs, checkpoints, h, hspent', -, hstruck⟩ := hsweep ⟨checkpoint, hhas⟩
    obtain rfl := hlatest latest h
    obtain ⟨rfl, rfl⟩ := hspent'.unique hspent
    obtain ⟨after, hrun, hfiles⟩ := hstruck 0 log rfl (.inr ⟨0, Nat.le_refl 0, List.mem_cons_self⟩)
      fun j hj => absurd hj (Nat.not_lt_zero j)
    exact ⟨after, hrun, hfiles.trans (PathMap.without_nil _)⟩

end Journal

end SegmentedJournal
