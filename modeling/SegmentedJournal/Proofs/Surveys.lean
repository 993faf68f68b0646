import SegmentedJournal.Proofs.Calm
import SegmentedJournal.Proofs.Covering
/-!
# What a snapshot sees

A snapshot has the files directly in the journal's two directories whose names are segments', and
no others.  `Journal.Finds` says so of a path alone: the root, the directory's name between
slashes, and a name without one.  The root is the journal's location without the slashes at its end
(`Path.exists_trimmed`), so it is empty for a location that is a slash or nothing.

Two incomplete logs make a snapshot fail, and it names them all; otherwise it has each file once,
in order (`Journal.snapshot_exact`).  Contiguous logs share no number and leave none out between
the first start and the last stop (`Chain.covers_iff`, `Chain.pairwise_apart`).
-/

namespace SegmentedJournal

/-! ### Paths -/

namespace Path

theorem join_of_getLast? {dir name : String} (h : dir.toList.getLast? ≠ some '/') :
    join dir name = dir ++ "/" ++ name := if_neg h

/-- A directory's path without the slashes at its end. -/
def rootOf (dir : String) : String :=
  String.ofList (dir.toList.reverse.dropWhile (· = '/')).reverse

theorem exists_slashes (dir : String) :
    ∃ slashes, dir = rootOf dir ++ slashes ∧ ∀ c ∈ slashes.toList, c = '/' := by
  have hslashes : ∀ c ∈ dir.toList.reverse.takeWhile (· = '/'), c = '/' := fun c hc =>
    of_decide_eq_true (List.all_eq_true.1 List.all_takeWhile c hc)
  refine ⟨String.ofList (dir.toList.reverse.takeWhile (· = '/')).reverse, ?_,
    by simpa using hslashes⟩
  rw [← String.toList_inj, rootOf, String.toList_append, String.toList_ofList,
    String.toList_ofList, ← List.reverse_append, List.takeWhile_append_dropWhile,
    List.reverse_reverse]

theorem getLast?_rootOf (dir : String) : (rootOf dir).toList.getLast? ≠ some '/' := by
  intro h
  have hhead := List.head?_dropWhile_not (fun c : Char => decide (c = '/')) dir.toList.reverse
  rw [rootOf, String.toList_ofList, List.getLast?_reverse] at h
  simp [h] at hhead

/-- What is joined to a directory without its slashes is behind a slash, in the root directory,
too. -/
theorem join_trimmed (dir name : String) : join (trimmed dir) name = rootOf dir ++ "/" ++ name := by
  have hlast := getLast?_rootOf dir
  unfold rootOf at hlast ⊢
  unfold trimmed
  split
  · next hnil => rw [hnil]; rfl
  · exact join_of_getLast? hlast

end Path

/-! ### Segments by their paths -/

/-- The directory of segments of a kind, between slashes. -/
def SegmentKind.directory : SegmentKind → String
  | .log => "/logs/"
  | .checkpoint => "/checkpoints/"

namespace Journal

variable {files : PathMap Bytes} {kind : SegmentKind} {segment : Segment}

/-- A file directly in one of the directories under `root`, with a segment's name. -/
structure Finds (root : String) (files : PathMap Bytes) (kind : SegmentKind) (segment : Segment) :
    Prop where
  /-- The file is there. -/
  present : files.contains segment.location = true
  /-- The segment is of the directory's kind. -/
  kind_eq : segment.kind = kind
  /-- The last part of the path is a name, and it stands for the segment's range. -/
  named : ∃ name, segment.location = root ++ kind.directory ++ name ∧ '/' ∉ name.toList ∧
    Segment.decodeName? name = some (segment.start, segment.stop)

theorem has_iff_finds {journal : Journal} {root : String}
    (hroot : ∀ name, Path.join journal.location name = root ++ "/" ++ name) :
    journal.Has files kind segment ↔ Finds root files kind segment := by
  have hjoin (name : String) :
      Path.join (journal.dirOf kind) name = root ++ kind.directory ++ name := by
    cases kind with
    | log =>
      rw [dirOf, logDir, hroot, Path.join_of_getLast? (by simp)]
      simp [SegmentKind.directory, String.append_assoc]
    | checkpoint =>
      rw [dirOf, checkpointDir, hroot, Path.join_of_getLast? (by simp)]
      simp [SegmentKind.directory, String.append_assoc]
  constructor
  · rintro ⟨⟨name, hchild, hname⟩, rfl, hpresent⟩
    obtain ⟨hlocation, hslash⟩ := Path.child?_eq_some_iff.1 hchild
    exact ⟨hpresent, rfl, name, hlocation.trans (hjoin name), hslash, hname⟩
  · rintro ⟨hpresent, rfl, name, hlocation, hslash, hname⟩
    have hchild := Path.child?_eq_some_iff.2 ⟨hlocation.trans (hjoin name).symm, hslash⟩
    exact ⟨⟨name, hchild, hname⟩, rfl, hpresent⟩

end Journal

/-! ### Contiguous logs -/

namespace Chain

variable {x y : Nat} {logs : List Segment}

/-- Logs that lead from one number to another without a gap cover what lies between. -/
theorem covers_iff (h : Chain 0 x logs y) (i : Nat) :
    (∃ log ∈ logs, log.Covers i) ↔ x ≤ i ∧ i < y := by
  induction logs generalizing x with
  | nil =>
    have hxy : x = y := by
      rcases h with heq | ⟨hle, hzero⟩ <;> omega
    simp
    omega
  | cons log logs ih =>
    obtain ⟨hlink, hbounds, hchain⟩ := h
    have hstart : x = log.start.toNat := by
      rcases hlink with heq | ⟨hle, hzero⟩ <;> omega
    have hle := UInt64.le_iff_toNat_le.1 hbounds
    have hend := hchain.le
    have hcons : (∃ other ∈ log :: logs, other.Covers i) ↔
        log.Covers i ∨ ∃ other ∈ logs, other.Covers i := by
      simp only [List.mem_cons, or_and_right, exists_or, exists_eq_left]
    rw [hcons, ih hchain, Segment.Covers]
    omega

/-- No number is covered twice. -/
theorem pairwise_apart (h : Chain 0 x logs y) :
    logs.Pairwise fun a b => ∀ i, ¬(a.Covers i ∧ b.Covers i) := by
  induction logs generalizing x with
  | nil => exact .nil
  | cons log logs ih =>
    obtain ⟨-, -, hchain⟩ := h
    refine List.pairwise_cons.2 ⟨fun other hother i hboth => ?_, ih hchain⟩
    have hlater := ((hchain.covers_iff i).1 ⟨other, hother, hboth.2⟩).1
    exact Nat.not_lt.2 hlater hboth.1.2

end Chain

namespace Segment

theorem covers_iff {log : Segment} {n : UInt64} : log.covers n = true ↔ log.Covers n.toNat := by
  simp only [covers, Covers, Bool.and_eq_true, decide_eq_true_eq, UInt64.le_iff_toNat_le,
    UInt64.lt_iff_toNat_lt]

end Segment

/-- The complete logs share no number and leave none out, and the current log goes on at their
end. -/
structure Snapshot.Tiled (snapshot : Snapshot) : Prop where
  /-- No two complete logs cover a number. -/
  apart : snapshot.logs.Pairwise fun a b => ∀ n, ¬(a.covers n = true ∧ b.covers n = true)
  /-- Together they cover what lies from the first start to the last stop. -/
  covered : ∀ first last, snapshot.logs.head? = some first → snapshot.logs.getLast? = some last →
    ∀ n, (∃ log ∈ snapshot.logs, log.covers n = true) ↔ first.start ≤ n ∧ n < last.stop
  /-- The current log starts there. -/
  continued : ∀ last current, snapshot.logs.getLast? = some last →
    snapshot.current = some current → current.start = last.stop

theorem Snapshot.tiled_of_isContiguous {snapshot : Snapshot}
    (hcontiguous : snapshot.isContiguous = true)
    (hbounds : ∀ log ∈ snapshot.logs, log.start ≤ log.stop) : snapshot.Tiled := by
  have hchain := chain_of_areContiguous (Bool.and_eq_true _ _ ▸ hcontiguous).1 hbounds
  refine ⟨hchain.pairwise_apart.imp fun hapart n hboth => ?_, fun first last hfirst hlast n => ?_,
    fun last current hlast hcurrent => ?_⟩
  · rw [Segment.covers_iff, Segment.covers_iff] at hboth
    exact hapart n.toNat hboth
  · have hcovers := hchain.covers_iff n.toNat
    rw [beginOf, endOf, hfirst, hlast, Option.elim_some, Option.elim_some] at hcovers
    simpa only [Segment.covers_iff, UInt64.le_iff_toNat_le, UInt64.lt_iff_toNat_lt] using hcovers
  · have hsome : snapshot.logs ≠ [] := fun hnil => by
      rw [hnil] at hlast
      cases hlast
    rw [start_of_isContiguous hcontiguous hcurrent hsome, endOf, hlast]
    rfl

/-! ### The snapshot -/

namespace Journal

/-- Two logs are incomplete. -/
def Ambiguous (root : String) (files : PathMap Bytes) : Prop :=
  ∃ a b, a ≠ b ∧ (Finds root files .log a ∧ a.stop = unknownStop) ∧
    Finds root files .log b ∧ b.stop = unknownStop

/-- The snapshot has every segment that is found, once and in order. -/
structure Exact (root : String) (files : PathMap Bytes) (snapshot : Snapshot) : Prop where
  /-- The checkpoints are in order. -/
  checkpoints_sorted : snapshot.checkpoints.Pairwise fun a b => a.precedes b = true
  /-- They are the checkpoints that are found. -/
  mem_checkpoints : ∀ segment, segment ∈ snapshot.checkpoints ↔ Finds root files .checkpoint segment
  /-- The complete logs are in order. -/
  logs_sorted : snapshot.logs.Pairwise fun a b => a.precedes b = true
  /-- They are the logs that are found and whose stop is known. -/
  mem_logs : ∀ segment, segment ∈ snapshot.logs ↔
    Finds root files .log segment ∧ segment.stop ≠ unknownStop
  /-- The current log is the one whose stop is not. -/
  current_iff : ∀ segment, snapshot.current = some segment ↔
    Finds root files .log segment ∧ segment.stop = unknownStop

variable {journal : Journal} {root : String} {files : PathMap Bytes}

/-- The incomplete logs of a map of files, in order. -/
def incompleteIn (journal : Journal) (files : PathMap Bytes) : List Segment :=
  (journal.segmentsIn .log files).filter Segment.isIncomplete

theorem mem_incompleteIn {segment : Segment} : segment ∈ journal.incompleteIn files ↔
    journal.Has files .log segment ∧ segment.stop = unknownStop := by
  rw [incompleteIn, List.mem_filter, mem_segmentsIn, isIncomplete_iff]

theorem pairwise_incompleteIn (journal : Journal) (files : PathMap Bytes) :
    (journal.incompleteIn files).Pairwise fun a b => a.precedes b = true :=
  (pairwise_segmentsIn journal .log files).filter _

/-- Files make a snapshot, or they have two incomplete logs. -/
theorem snapshotOf_cases (journal : Journal) (files : PathMap Bytes) :
    (∃ snapshot, journal.snapshotOf files = .ok snapshot) ∨
      (∃ a b, a ≠ b ∧ a ∈ journal.incompleteIn files ∧ b ∈ journal.incompleteIn files) ∧
        journal.snapshotOf files = .error
          (.corruptSnapshot journal.location ((journal.incompleteIn files).map Segment.location)) := by
  have hsorted := pairwise_incompleteIn journal files
  unfold snapshotOf Snapshot.ofSegments
  dsimp only
  rw [← incompleteIn]
  split
  · exact .inl ⟨_, rfl⟩
  · exact .inl ⟨_, rfl⟩
  · next hnil hsingle =>
    refine .inr ⟨?_, rfl⟩
    match hincomplete : journal.incompleteIn files with
    | [] => exact absurd hincomplete hnil
    | [log] => exact absurd hincomplete (hsingle log)
    | a :: b :: rest =>
      rw [hincomplete] at hsorted
      refine ⟨a, b, fun heq => ?_, List.mem_cons_self, List.mem_cons_of_mem _ List.mem_cons_self⟩
      have hprecedes := (List.pairwise_cons.1 hsorted).1 b List.mem_cons_self
      rw [heq, Segment.precedes_irrefl] at hprecedes
      cases hprecedes

theorem exact_of_snapshotOf_eq {snapshot : Snapshot}
    (hfinds : ∀ kind segment, journal.Has files kind segment ↔ Finds root files kind segment)
    (h : journal.snapshotOf files = .ok snapshot) : Exact root files snapshot := by
  obtain ⟨checkpoints, logs, current⟩ := snapshot
  obtain ⟨hcheckpoints, hmem, hlogs, hcomplete, hcurrent⟩ := lists_of_snapshotOf_eq h
  simp only [hfinds] at hmem hcomplete hcurrent
  exact ⟨hcheckpoints, hmem, hlogs, hcomplete, hcurrent⟩

/-- Where a log is the only incomplete one there are no two. -/
theorem Exact.not_ambiguous {snapshot : Snapshot} (h : Exact root files snapshot) :
    ¬Ambiguous root files := by
  rintro ⟨a, b, hne, ha, hb⟩
  have hsame := ((h.current_iff a).2 ha).symm.trans ((h.current_iff b).2 hb)
  exact hne (Option.some.inj hsame)

/-- **A snapshot is what the two directories hold.**  The journal's location may be any string and
the files any map.  If two files directly in the directory of the logs have names of incomplete
logs, the snapshot fails and names all such files, in order.  Otherwise it has each file directly
in one of the directories whose name is a segment's, once and in order, and nothing else.  If its
logs are contiguous they are a row without gaps or overlaps, and the current log goes on where it
ends. -/
theorem snapshot_exact (location : String) (config : Config) (medium : Medium Memory)
    (hcalm : medium.Calm) :
    (∃ slashes, location = Path.rootOf location ++ slashes ∧ ∀ c ∈ slashes.toList, c = '/') ∧
    (Path.rootOf location).toList.getLast? ≠ some '/' ∧
    (Ambiguous (Path.rootOf location) medium.storage.files →
      ∃ (incomplete : List Segment) (after : Medium Memory),
        incomplete.Pairwise (fun a b => a.precedes b = true) ∧
        (∀ segment, segment ∈ incomplete ↔
          Finds (Path.rootOf location) medium.storage.files .log segment ∧
            segment.stop = unknownStop) ∧
        (rooted location config).snapshot medium = .error (.error (.corruptSnapshot
          (rooted location config).location (incomplete.map Segment.location))) after) ∧
    (¬Ambiguous (Path.rootOf location) medium.storage.files →
      ∃ (snapshot : Snapshot) (after : Medium Memory),
        (rooted location config).snapshot medium = .ok snapshot after ∧
        Exact (Path.rootOf location) medium.storage.files snapshot ∧
        (snapshot.isContiguous = true → snapshot.Tiled)) := by
  refine ⟨Path.exists_slashes location, Path.getLast?_rootOf location, ?_⟩
  have hfinds (kind : SegmentKind) (segment : Segment) :
      (rooted location config).Has medium.storage.files kind segment ↔
        Finds (Path.rootOf location) medium.storage.files kind segment :=
    has_iff_finds (Path.join_trimmed location)
  rcases (ensures_snapshot_of_calm (rooted location config) hcalm).ok_or_error with
    ⟨snapshot, after, hrun, hsnapshot, -⟩ | ⟨e, after, hrun, herror, -⟩
  · have hexact := exact_of_snapshotOf_eq hfinds hsnapshot
    refine ⟨fun h => absurd h hexact.not_ambiguous, fun _ => ⟨snapshot, after, hrun, hexact, ?_⟩⟩
    intro hcontiguous
    refine Snapshot.tiled_of_isContiguous hcontiguous fun log hlog => ?_
    exact ((hfinds .log log).2 ((hexact.mem_logs log).1 hlog).1).places.bounds.1
  · rcases snapshotOf_cases (rooted location config) medium.storage.files with
      ⟨snapshot, hsnapshot⟩ | ⟨⟨a, b, hne, ha, hb⟩, hcorrupt⟩
    · rw [hsnapshot] at herror
      cases herror
    · rw [mem_incompleteIn, hfinds] at ha hb
      obtain rfl := Except.error.inj (herror.symm.trans hcorrupt)
      refine ⟨fun _ => ⟨_, after, pairwise_incompleteIn _ _, fun segment => ?_, hrun⟩,
        fun h => absurd ⟨a, b, hne, ha, hb⟩ h⟩
      rw [mem_incompleteIn, hfinds]

/-- Two spellings of one incomplete log make a snapshot fail.  An incomplete log in a directory
further down makes none: the snapshot has the log above it, and no current log. -/
theorem snapshot_exact_spellings :
    let medium (files : PathMap Bytes) : Medium Memory :=
      { storage := { publishing := .onFlush, files } }
    let spelled := (PathMap.empty.insert "j/logs/0x5-0x7fffffffffffffff" []).insert
      "j/logs/0x05-0x7FFFFFFFFFFFFFFF" []
    let nested := (PathMap.empty.insert "j/logs/0x0-0x5" []).insert
      "j/logs/old/0x5-0x7fffffffffffffff" []
    (medium spelled).Calm ∧ (medium nested).Calm ∧
      (∃ (incomplete : List Segment) (after : Medium Memory),
        (rooted "j//" {}).snapshot (medium spelled) =
          .error (.error (.corruptSnapshot "j" (incomplete.map Segment.location))) after) ∧
      ∃ (snapshot : Snapshot) (after : Medium Memory),
        (rooted "j" {}).snapshot (medium nested) = .ok snapshot after ∧
        ⟨0, 5, "j/logs/0x0-0x5", .log⟩ ∈ snapshot.logs ∧ snapshot.current = none := by
  intro medium spelled nested
  have hroot : Path.rootOf "j//" = "j" ∧ Path.rootOf "j" = "j" := by decide
  obtain ⟨-, -, hcorrupt, -⟩ := snapshot_exact "j//" {} (medium spelled) rfl
  obtain ⟨-, -, -, hsound⟩ := snapshot_exact "j" {} (medium nested) rfl
  rw [hroot.1] at hcorrupt
  rw [hroot.2] at hsound
  refine ⟨rfl, rfl, ?_, ?_⟩
  · obtain ⟨incomplete, after, -, -, hrun⟩ := hcorrupt
      ⟨⟨5, unknownStop, "j/logs/0x5-0x7fffffffffffffff", .log⟩,
        ⟨5, unknownStop, "j/logs/0x05-0x7FFFFFFFFFFFFFFF", .log⟩, by decide,
        ⟨⟨by decide, rfl, "0x5-0x7fffffffffffffff", by decide, by decide, by decide⟩, rfl⟩,
        ⟨⟨by decide, rfl, "0x05-0x7FFFFFFFFFFFFFFF", by decide, by decide, by decide⟩, rfl⟩⟩
    exact ⟨incomplete, after, hrun⟩
  · have hnone (log : Segment) (hfinds : Finds "j" nested .log log) : log.stop ≠ unknownStop := by
      obtain ⟨hpresent, -, name, hlocation, hslash, hname⟩ := hfinds
      have hcut (rest : String) (heq : "j/logs/" ++ rest = "j" ++ SegmentKind.log.directory ++ name) :
          name = rest := by
        rw [show "j" ++ SegmentKind.log.directory = "j/logs/" by decide] at heq
        exact (String.append_right_inj _).1 heq.symm
      rw [PathMap.contains_insert, PathMap.contains_insert, hlocation] at hpresent
      rcases hpresent with heq | heq | hempty
      · -- Behind the directory there is another slash.
        obtain rfl := hcut "old/0x5-0x7fffffffffffffff" (.trans (by decide) heq)
        exact absurd (by decide) hslash
      · obtain rfl := hcut "0x0-0x5" (.trans (by decide) heq)
        rw [show Segment.decodeName? "0x0-0x5" = some (0, 5) by decide] at hname
        rw [← (Prod.mk.inj (Option.some.inj hname)).2]
        decide
      · cases hempty
    obtain ⟨snapshot, after, hrun, hexact, -⟩ := hsound fun ⟨a, _, _, ⟨ha, hstop⟩, _⟩ =>
      hnone a ha hstop
    refine ⟨snapshot, after, hrun, (hexact.mem_logs _).2 ⟨⟨by decide, rfl, "0x0-0x5", by decide,
      by decide, by decide⟩, by decide⟩, ?_⟩
    cases hcurrent : snapshot.current with
    | none => rfl
    | some log =>
      obtain ⟨hfinds, hstop⟩ := (hexact.current_iff log).1 hcurrent
      exact absurd hstop (hnone log hfinds)

end Journal

end SegmentedJournal
