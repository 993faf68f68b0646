import SegmentedJournal.Proofs.Names
/-!
# Listings

What a map of files is as a journal.  `Journal.segmentsIn` are the segments of a kind whose files
are in the map, in order, and `Journal.snapshotOf` puts them together as a snapshot of the medium
would.  `Journal.Lists` says the same by membership: which segments are checkpoints, which are
complete logs, and which is the current one (`Lists.snapshotOf_eq`, `lists_of_snapshotOf_eq`).  What
a change of the map does to a journal is read off membership, one lemma for each change.
-/

namespace SegmentedJournal

/-! ### The order of segments -/

namespace Segment

variable {a b c : Segment}

/-- Segments are ordered by start, then stop, then location. -/
theorem precedes_iff : a.precedes b = true ↔ a.start < b.start ∨
    a.start = b.start ∧ (a.stop < b.stop ∨ a.stop = b.stop ∧ a.location < b.location) := by
  simp only [precedes, Bool.or_eq_true, Bool.and_eq_true, decide_eq_true_eq]

theorem not_precedes_iff : a.precedes b = false ↔ b.start ≤ a.start ∧
    (a.start = b.start → b.stop ≤ a.stop ∧ (a.stop = b.stop → b.location ≤ a.location)) := by
  simp only [precedes, Bool.or_eq_false_iff, Bool.and_eq_false_imp, decide_eq_false_iff_not,
    decide_eq_true_eq, UInt64.not_lt, String.not_lt]

theorem not_precedes_trans (hab : a.precedes b = false) (hbc : b.precedes c = false) :
    a.precedes c = false := by
  rw [not_precedes_iff] at *
  obtain ⟨hstart, hab⟩ := hab
  obtain ⟨hstart', hbc⟩ := hbc
  refine ⟨UInt64.le_trans hstart' hstart, ?_⟩
  intro hac
  have hsame : b.start = c.start := UInt64.le_antisymm (hac ▸ hstart) hstart'
  obtain ⟨hstop, hab⟩ := hab (hac.trans hsame.symm)
  obtain ⟨hstop', hbc⟩ := hbc hsame
  refine ⟨UInt64.le_trans hstop' hstop, ?_⟩
  intro hac
  have hsame' : b.stop = c.stop := UInt64.le_antisymm (hac ▸ hstop) hstop'
  exact String.le_trans (hbc hsame') (hab (hac.trans hsame'.symm))

theorem not_precedes_total (a b : Segment) : a.precedes b = false ∨ b.precedes a = false := by
  rw [not_precedes_iff, not_precedes_iff]
  by_cases hstart : a.start = b.start
  · by_cases hstop : a.stop = b.stop
    · rcases String.le_total a.location b.location with hle | hle
      · exact .inr ⟨hstart ▸ UInt64.le_refl _, fun _ => ⟨hstop ▸ UInt64.le_refl _, fun _ => hle⟩⟩
      · exact .inl ⟨hstart ▸ UInt64.le_refl _, fun _ => ⟨hstop ▸ UInt64.le_refl _, fun _ => hle⟩⟩
    · rcases UInt64.lt_or_lt_of_ne hstop with hlt | hlt
      · exact .inr ⟨hstart ▸ UInt64.le_refl _, fun _ =>
          ⟨UInt64.le_of_lt hlt, fun heq => absurd heq.symm hstop⟩⟩
      · exact .inl ⟨hstart ▸ UInt64.le_refl _, fun _ =>
          ⟨UInt64.le_of_lt hlt, fun heq => absurd heq hstop⟩⟩
  · rcases UInt64.lt_or_lt_of_ne hstart with hlt | hlt
    · exact .inr ⟨UInt64.le_of_lt hlt, fun heq => absurd heq.symm hstart⟩
    · exact .inl ⟨UInt64.le_of_lt hlt, fun heq => absurd heq hstart⟩

/-- Only at one location can neither of two segments precede the other. -/
theorem location_eq_of_not_precedes (hab : a.precedes b = false) (hba : b.precedes a = false) :
    a.location = b.location := by
  rw [not_precedes_iff] at *
  have hstart := UInt64.le_antisymm hba.1 hab.1
  have hstop := UInt64.le_antisymm (hba.2 hstart.symm).1 (hab.2 hstart).1
  exact String.le_antisymm ((hba.2 hstart.symm).2 hstop.symm) ((hab.2 hstart).2 hstop)

theorem not_precedes_of_precedes (h : a.precedes b = true) : b.precedes a = false := by
  rcases not_precedes_total a b with h' | h'
  · rw [h] at h'; cases h'
  · exact h'

theorem precedes_irrefl (a : Segment) : a.precedes a = false := by
  rcases not_precedes_total a a with h | h <;> exact h

end Segment

namespace PathMap

variable {α : Type}

theorem contains_iff {map : PathMap α} {path : String} :
    map.contains path = true ↔ ∃ value, map.get? path = some value :=
  Option.isSome_iff_exists

theorem mem_paths_iff {map : PathMap α} {path : String} :
    path ∈ map.paths ↔ map.contains path = true := by
  rw [paths, List.mem_map, contains_iff]
  constructor
  · intro h
    obtain ⟨⟨_, value⟩, hmem, rfl⟩ := h
    exact ⟨value, mem_entries_iff.1 hmem⟩
  · intro h
    obtain ⟨value, hget⟩ := h
    exact ⟨(path, value), mem_entries_iff.2 hget, rfl⟩

theorem nodup_paths (map : PathMap α) : map.paths.Nodup := by
  rw [paths, List.Nodup, List.pairwise_map]
  refine map.ordered.imp fun {a b} hlt heq => ?_
  rw [heq] at hlt
  exact String.lt_irrefl _ hlt

@[simp] theorem contains_insert (map : PathMap α) (path other : String) (value : α) :
    (map.insert path value).contains other = true ↔ path = other ∨ map.contains other = true := by
  rw [contains, get?_insert, contains]
  split <;> simp_all

@[simp] theorem contains_erase (map : PathMap α) (path other : String) :
    (map.erase path).contains other = true ↔ path ≠ other ∧ map.contains other = true := by
  rw [contains, get?_erase, contains]
  split <;> simp_all

theorem erase_insert {map : PathMap α} {path : String} (h : map.get? path = none) (value : α) :
    (map.insert path value).erase path = map := by
  refine ext fun other => ?_
  rw [get?_erase, get?_insert]
  split
  · next heq => rw [← heq, h]
  · rfl

end PathMap

namespace Journal

variable {journal : Journal} {files : PathMap Bytes} {kind : SegmentKind}
  {checkpoints complete : List Segment} {current : Option Segment} {segment other : Segment}

/-! ### The segments in a map of files -/

/-- The segments of a kind whose files are in the map, in order. -/
def segmentsIn (journal : Journal) (kind : SegmentKind) (files : PathMap Bytes) : List Segment :=
  journal.segmentsNamed kind (files.paths.filterMap (Path.child? (journal.dirOf kind)))

/-- The snapshot of a map of files. -/
def snapshotOf (journal : Journal) (files : PathMap Bytes) : Except JournalError Snapshot :=
  Snapshot.ofSegments journal.location (journal.segmentsIn .checkpoint files)
    (journal.segmentsIn .log files)

/-- The map has the segment's file, and the segment is of the kind. -/
structure Has (journal : Journal) (files : PathMap Bytes) (kind : SegmentKind)
    (segment : Segment) : Prop where
  /-- The segment is one of the journal's. -/
  places : journal.Places segment
  /-- It is of the kind. -/
  kind_eq : segment.kind = kind
  /-- Its file is there. -/
  present : files.contains segment.location = true

theorem mem_segmentsIn :
    segment ∈ journal.segmentsIn kind files ↔ journal.Has files kind segment := by
  simp only [segmentsIn, segmentsNamed, Segment.sorted, List.mem_mergeSort, List.mem_filterMap,
    PathMap.mem_paths_iff, Segment.ofLocation?, Option.map_eq_some_iff, Prod.exists]
  constructor
  · rintro ⟨name, ⟨path, hpresent, hchild⟩, start, stop, hname, rfl⟩
    obtain ⟨rfl, hslash⟩ := Path.child?_eq_some_iff.1 hchild
    rw [Path.fileName_join _ _ hslash] at hname
    exact ⟨⟨name, hchild, hname⟩, rfl, hpresent⟩
  · rintro ⟨⟨name, hchild, hname⟩, rfl, hpresent⟩
    obtain ⟨hpath, hslash⟩ := Path.child?_eq_some_iff.1 hchild
    refine ⟨name, ⟨segment.location, hpresent, hchild⟩, segment.start, segment.stop, ?_, ?_⟩
    · rwa [Path.fileName_join _ _ hslash]
    · rw [← hpath]

theorem Has.eq_of_location {files' : PathMap Bytes} {kind' : SegmentKind}
    (h : journal.Has files kind segment) (h' : journal.Has files' kind' other)
    (hlocation : segment.location = other.location) : segment = other :=
  h.places.eq_of_location h'.places hlocation

theorem nodup_segmentsIn (journal : Journal) (kind : SegmentKind) (files : PathMap Bytes) :
    (journal.segmentsIn kind files).Nodup := by
  rw [segmentsIn, segmentsNamed, Segment.sorted, (List.mergeSort_perm _ _).nodup_iff]
  have hnames : (files.paths.filterMap (Path.child? (journal.dirOf kind))).Nodup := by
    refine List.Pairwise.filterMap _ ?_
      files.nodup_paths
    intro path path' hne name hname name' hname' heq
    rw [(Path.child?_eq_some_iff.1 hname).1, (Path.child?_eq_some_iff.1 hname').1] at hne
    exact hne (heq ▸ rfl)
  -- The name is the last part of the location, so names that differ stand for different segments.
  refine List.Pairwise.filterMap _ ?_ hnames
  intro name name' hne seg hseg seg' hseg' heq
  obtain ⟨range, -, rfl⟩ := Option.map_eq_some_iff.1 hseg
  obtain ⟨range', -, rfl⟩ := Option.map_eq_some_iff.1 hseg'
  exact hne (Path.join_inj (congrArg Segment.location heq))

/-- The segments of a map are in order, each strictly before the ones behind it. -/
theorem pairwise_segmentsIn (journal : Journal) (kind : SegmentKind) (files : PathMap Bytes) :
    (journal.segmentsIn kind files).Pairwise fun a b => a.precedes b = true := by
  have hsorted : (journal.segmentsIn kind files).Pairwise fun a b => (!b.precedes a) = true :=
    List.pairwise_mergeSort
      (fun a b c hab hbc => by
        simp only [Bool.not_eq_true'] at *
        exact Segment.not_precedes_trans hbc hab)
      (fun a b => by
        rcases Segment.not_precedes_total a b with h | h <;> simp [h]) _
  -- Only at one location could neither precede the other, and no location comes twice.
  refine List.Pairwise.imp_of_mem (fun {a b} ha hb h => ?_)
    (List.Pairwise.and hsorted (nodup_segmentsIn journal kind files))
  obtain ⟨hle, hne⟩ := h
  simp only [Bool.not_eq_true'] at hle
  cases hab : a.precedes b with
  | true => rfl
  | false =>
      exact absurd ((mem_segmentsIn.1 ha).eq_of_location (mem_segmentsIn.1 hb)
        (Segment.location_eq_of_not_precedes hab hle)) hne

/-- Segments in strict order are determined by which they are. -/
theorem eq_of_mem_iff {segments segments' : List Segment}
    (h : segments.Pairwise fun a b => a.precedes b = true)
    (h' : segments'.Pairwise fun a b => a.precedes b = true)
    (hmem : ∀ segment, segment ∈ segments ↔ segment ∈ segments') : segments = segments' := by
  have hnodup {l : List Segment} (h : l.Pairwise fun a b => a.precedes b = true) : l.Nodup :=
    h.imp fun {a b} hab heq => by
      rw [heq, Segment.precedes_irrefl] at hab
      cases hab
  have hantisymm (a b : Segment) (_ : a ∈ segments) (_ : b ∈ segments')
      (hab : a.precedes b = true) (hba : b.precedes a = true) : a = b := by
    rw [Segment.not_precedes_of_precedes hab] at hba
    cases hba
  exact List.Perm.eq_of_pairwise hantisymm h h'
    ((List.perm_ext_iff_of_nodup (hnodup h) (hnodup h')).2 hmem)

/-- Those before some segment come first. -/
theorem eq_filter_append {segments : List Segment}
    (h : segments.Pairwise fun a b => a.precedes b = true) (segment : Segment) :
    segments = segments.filter (fun other => other.precedes segment) ++
      segments.filter fun other => !other.precedes segment := by
  refine eq_of_mem_iff h ?_ fun other => ?_
  · refine List.pairwise_append.2 ⟨h.filter _, h.filter _, fun a ha b hb => ?_⟩
    have ha := (List.mem_filter.1 ha).2
    have hb := (List.mem_filter.1 hb).2
    rw [Bool.not_eq_true'] at hb
    cases hab : a.precedes b with
    | true => rfl
    | false =>
        rw [Segment.not_precedes_trans hab hb] at ha
        cases ha
  · rw [List.mem_append, List.mem_filter, List.mem_filter, ← and_or_left]
    exact (and_iff_left (by cases other.precedes segment <;> simp)).symm

/-- Where the segments that precede one are the same in two lists in order, those in front of it in
the one are those that precede it in the other. -/
theorem eq_filter_of_precedes {segments before behind : List Segment} {segment : Segment}
    (hsorted : segments.Pairwise fun a b => a.precedes b = true)
    (hsorted' : (before ++ segment :: behind).Pairwise fun a b => a.precedes b = true)
    (hsame : ∀ other, other.precedes segment = true →
      (other ∈ before ++ segment :: behind ↔ other ∈ segments)) :
    before = segments.filter fun other => other.precedes segment := by
  obtain ⟨hbefore, hbehind, hacross⟩ := List.pairwise_append.1 hsorted'
  refine eq_of_mem_iff hbefore (hsorted.filter _) fun other => ?_
  rw [List.mem_filter]
  constructor
  · intro hother
    have hprecedes := hacross other hother segment List.mem_cons_self
    exact ⟨(hsame other hprecedes).1 (List.mem_append_left _ hother), hprecedes⟩
  · rintro ⟨hother, hprecedes⟩
    rcases List.mem_append.1 ((hsame other hprecedes).2 hother) with hother | hother
    · exact hother
    rcases List.mem_cons.1 hother with rfl | hother
    · rw [Segment.precedes_irrefl] at hprecedes
      cases hprecedes
    · have hafter := (List.pairwise_cons.1 hbehind).1 other hother
      rw [Segment.not_precedes_of_precedes hprecedes] at hafter
      cases hafter

/-! ### A map of files as a journal -/

/-- The map's checkpoints, complete logs and current log. -/
structure Lists (journal : Journal) (files : PathMap Bytes) (checkpoints complete : List Segment)
    (current : Option Segment) : Prop where
  /-- The checkpoints are in order. -/
  checkpoints_sorted : checkpoints.Pairwise fun a b => a.precedes b = true
  /-- They are the map's checkpoints. -/
  mem_checkpoints : ∀ segment, segment ∈ checkpoints ↔ journal.Has files .checkpoint segment
  /-- The complete logs are in order. -/
  complete_sorted : complete.Pairwise fun a b => a.precedes b = true
  /-- They are the map's logs whose stop is known. -/
  mem_complete : ∀ segment, segment ∈ complete ↔
    journal.Has files .log segment ∧ segment.stop ≠ unknownStop
  /-- The current log is the map's one log whose stop is not known. -/
  mem_current : ∀ segment, current = some segment ↔
    journal.Has files .log segment ∧ segment.stop = unknownStop

theorem isIncomplete_iff : segment.isIncomplete = true ↔ segment.stop = unknownStop := by
  simp [Segment.isIncomplete]

theorem lists_of_snapshotOf_eq
    (h : journal.snapshotOf files = .ok ⟨checkpoints, complete, current⟩) :
    journal.Lists files checkpoints complete current := by
  have hlogs := pairwise_segmentsIn journal .log files
  have hcurrent : (journal.segmentsIn .log files).filter Segment.isIncomplete = current.toList ∧
      journal.segmentsIn .checkpoint files = checkpoints ∧
      (journal.segmentsIn .log files).filter (fun log => !log.isIncomplete) = complete := by
    unfold snapshotOf Snapshot.ofSegments at h
    dsimp only at h
    split at h
    · next hnone => cases h; exact ⟨hnone, rfl, rfl⟩
    · next hone => cases h; exact ⟨hone, rfl, rfl⟩
    · cases h
  obtain ⟨hcurrent, rfl, rfl⟩ := hcurrent
  refine ⟨pairwise_segmentsIn journal .checkpoint files, fun _ => mem_segmentsIn,
    hlogs.filter _, ?_, ?_⟩
  · intro segment
    rw [List.mem_filter, mem_segmentsIn, Bool.not_eq_true', ← Bool.not_eq_true,
      isIncomplete_iff]
  · intro segment
    rw [← Option.mem_toList, ← hcurrent, List.mem_filter, mem_segmentsIn, isIncomplete_iff]

theorem Lists.segmentsIn_checkpoint (h : journal.Lists files checkpoints complete current) :
    journal.segmentsIn .checkpoint files = checkpoints :=
  eq_of_mem_iff (pairwise_segmentsIn _ _ _) h.checkpoints_sorted fun segment => by
    rw [mem_segmentsIn, h.mem_checkpoints]

theorem Lists.segmentsIn_complete (h : journal.Lists files checkpoints complete current) :
    (journal.segmentsIn .log files).filter (fun log => !log.isIncomplete) = complete :=
  eq_of_mem_iff ((pairwise_segmentsIn journal .log files).filter _) h.complete_sorted
    fun segment => by
      rw [List.mem_filter, mem_segmentsIn, h.mem_complete, Bool.not_eq_true', ← Bool.not_eq_true,
        isIncomplete_iff]

theorem Lists.snapshotOf_eq (h : journal.Lists files checkpoints complete current) :
    journal.snapshotOf files = .ok ⟨checkpoints, complete, current⟩ := by
  have hlogs := pairwise_segmentsIn journal .log files
  have hcurrent : (journal.segmentsIn .log files).filter Segment.isIncomplete =
      current.toList := by
    refine eq_of_mem_iff (hlogs.filter _) ?_ fun segment => by
      rw [List.mem_filter, mem_segmentsIn, isIncomplete_iff, Option.mem_toList, h.mem_current]
    cases current <;> simp
  unfold snapshotOf Snapshot.ofSegments
  rw [hcurrent, h.segmentsIn_complete, h.segmentsIn_checkpoint]
  cases current <;> rfl

theorem snapshotOf_empty (journal : Journal) : journal.snapshotOf .empty = .ok ⟨[], [], none⟩ := by
  simp [snapshotOf, segmentsIn, segmentsNamed, PathMap.paths, PathMap.empty, Segment.sorted,
    Snapshot.ofSegments]

/-! ### Changes of the map -/

theorem Has.ne_location {files' : PathMap Bytes} {kind' : SegmentKind}
    (h : journal.Has files kind segment) (h' : journal.Has files' kind' other)
    (hne : segment ≠ other) : segment.location ≠ other.location :=
  fun hlocation => hne (h.eq_of_location h' hlocation)

/-- A segment of another kind is somewhere else. -/
theorem Has.ne_of_kind_ne (h : journal.Has files kind segment) (hplaces : journal.Places other)
    (hkind : other.kind ≠ kind) : other.location ≠ segment.location := by
  intro hlocation
  have hsame := hplaces.eq_of_location h.places hlocation
  exact hkind (hsame ▸ h.kind_eq)

theorem has_insert_iff {path : String} {value : Bytes} :
    journal.Has (files.insert path value) kind segment ↔ journal.Has files kind segment ∨
      journal.Places segment ∧ segment.kind = kind ∧ segment.location = path := by
  constructor
  · intro h
    rcases (PathMap.contains_insert ..).1 h.present with heq | hpresent
    · exact .inr ⟨h.places, h.kind_eq, heq.symm⟩
    · exact .inl ⟨h.places, h.kind_eq, hpresent⟩
  · rintro (h | ⟨hplaces, hkind, rfl⟩)
    · exact ⟨h.places, h.kind_eq, (PathMap.contains_insert ..).2 (.inr h.present)⟩
    · exact ⟨hplaces, hkind, (PathMap.contains_insert ..).2 (.inl rfl)⟩

theorem has_erase_iff {path : String} :
    journal.Has (files.erase path) kind segment ↔
      journal.Has files kind segment ∧ path ≠ segment.location := by
  constructor
  · intro h
    obtain ⟨hne, hpresent⟩ := (PathMap.contains_erase ..).1 h.present
    exact ⟨⟨h.places, h.kind_eq, hpresent⟩, hne⟩
  · rintro ⟨h, hne⟩
    exact ⟨h.places, h.kind_eq, (PathMap.contains_erase ..).2 ⟨hne, h.present⟩⟩

/-- A file at the location of a segment is that segment's. -/
theorem has_insert_location_iff {value : Bytes} (h : journal.Places other) :
    journal.Has (files.insert other.location value) kind segment ↔
      journal.Has files kind segment ∨ segment = other ∧ segment.kind = kind := by
  rw [has_insert_iff]
  refine or_congr_right ⟨?_, ?_⟩
  · rintro ⟨hplaces, hkind, hlocation⟩
    exact ⟨hplaces.eq_of_location h hlocation, hkind⟩
  · rintro ⟨rfl, hkind⟩
    exact ⟨h, hkind, rfl⟩

theorem has_erase_location_iff (h : journal.Places other) :
    journal.Has (files.erase other.location) kind segment ↔
      journal.Has files kind segment ∧ segment ≠ other := by
  rw [has_erase_iff]
  refine and_congr_right fun hhas => not_congr ⟨?_, ?_⟩
  · exact fun hlocation => (h.eq_of_location hhas.places hlocation).symm
  · rintro rfl
    rfl

/-- A file of one kind that is written or removed leaves the segments of another as they are. -/
theorem has_insert_of_kind_ne {value : Bytes} (h : journal.Places other)
    (hkind : other.kind ≠ kind) :
    journal.Has (files.insert other.location value) kind segment ↔
      journal.Has files kind segment := by
  rw [has_insert_location_iff h]
  refine or_iff_left ?_
  rintro ⟨rfl, hsegment⟩
  exact hkind hsegment

theorem has_erase_of_kind_ne (h : journal.Places other) (hkind : other.kind ≠ kind) :
    journal.Has (files.erase other.location) kind segment ↔ journal.Has files kind segment := by
  rw [has_erase_iff]
  exact and_iff_left_of_imp fun hhas => hhas.ne_of_kind_ne h hkind

namespace Lists

/-- What a journal is depends on which files there are, not on what they hold. -/
theorem of_contains {files' : PathMap Bytes}
    (h : journal.Lists files checkpoints complete current)
    (hsame : ∀ path, files'.contains path = files.contains path) :
    journal.Lists files' checkpoints complete current := by
  have hhas {kind : SegmentKind} {segment : Segment} :
      journal.Has files' kind segment ↔ journal.Has files kind segment :=
    ⟨fun h => ⟨h.places, h.kind_eq, hsame _ ▸ h.present⟩,
      fun h => ⟨h.places, h.kind_eq, (hsame _).symm ▸ h.present⟩⟩
  exact ⟨h.checkpoints_sorted, fun _ => (h.mem_checkpoints _).trans hhas.symm,
    h.complete_sorted, fun _ => (h.mem_complete _).trans (and_congr_left' hhas.symm),
    fun _ => (h.mem_current _).trans (and_congr_left' hhas.symm)⟩

theorem has_current {log : Segment} (h : journal.Lists files checkpoints complete (some log)) :
    journal.Has files .log log ∧ log.stop = unknownStop :=
  (h.mem_current log).1 rfl

/-- Without a current log, no file of a log to begin is there. -/
theorem absent_incomplete {start : UInt64} (h : journal.Lists files checkpoints complete none)
    (hstart : start ≤ unknownStop) :
    files.get? (journal.log start unknownStop).location = none := by
  rw [← Option.not_isSome_iff_eq_none]
  intro hpresent
  have hcurrent := (h.mem_current (journal.log start unknownStop)).2
    ⟨⟨journal.places_log hstart (UInt64.le_refl _), rfl, hpresent⟩, rfl⟩
  cases hcurrent

/-- The current log is removed. -/
theorem erase_current {log : Segment}
    (h : journal.Lists files checkpoints complete (some log)) :
    journal.Lists (files.erase log.location) checkpoints complete none := by
  obtain ⟨hhas, hstop⟩ := h.has_current
  refine ⟨h.checkpoints_sorted, ?_, h.complete_sorted, ?_, ?_⟩
  · intro segment
    rw [h.mem_checkpoints, has_erase_of_kind_ne hhas.places (hhas.kind_eq ▸ nofun)]
  · intro segment
    rw [h.mem_complete, has_erase_location_iff hhas.places, and_right_comm]
    refine (and_iff_left_of_imp ?_).symm
    rintro hsegment rfl
    exact hsegment.2 hstop
  · intro segment
    rw [has_erase_location_iff hhas.places]
    refine ⟨fun hnone => (by cases hnone), ?_⟩
    rintro ⟨⟨hsegment, hne⟩, hsegmentStop⟩
    have hsame := (h.mem_current segment).2 ⟨hsegment, hsegmentStop⟩
    cases hsame
    exact absurd rfl hne

/-- A current log is put where there was none. -/
theorem insert_current {log : Segment} {value : Bytes}
    (h : journal.Lists files checkpoints complete none)
    (hplaces : journal.Places log) (hkind : log.kind = .log) (hstop : log.stop = unknownStop) :
    journal.Lists (files.insert log.location value) checkpoints complete (some log) := by
  refine ⟨h.checkpoints_sorted, ?_, h.complete_sorted, ?_, ?_⟩
  · intro segment
    rw [h.mem_checkpoints, has_insert_of_kind_ne hplaces (hkind ▸ nofun)]
  · intro segment
    rw [h.mem_complete, has_insert_location_iff hplaces, or_and_right]
    refine (or_iff_left ?_).symm
    rintro ⟨⟨rfl, -⟩, hsegment⟩
    exact hsegment hstop
  · intro segment
    rw [has_insert_location_iff hplaces, or_and_right, Option.some_inj, ← h.mem_current]
    constructor
    · rintro rfl
      exact .inr ⟨⟨rfl, hkind⟩, hstop⟩
    · rintro (hnone | ⟨⟨rfl, -⟩, -⟩)
      · cases hnone
      · rfl

/-- A complete log is put behind all others. -/
theorem insert_complete {log : Segment} {value : Bytes}
    (h : journal.Lists files checkpoints complete current)
    (hplaces : journal.Places log) (hkind : log.kind = .log) (hstop : log.stop ≠ unknownStop)
    (hlast : ∀ before ∈ complete, before.precedes log = true) :
    journal.Lists (files.insert log.location value) checkpoints (complete ++ [log]) current := by
  refine ⟨h.checkpoints_sorted, ?_, ?_, ?_, ?_⟩
  · intro segment
    rw [h.mem_checkpoints, has_insert_of_kind_ne hplaces (hkind ▸ nofun)]
  · refine List.pairwise_append.2 ⟨h.complete_sorted, List.pairwise_singleton _ _, ?_⟩
    intro before hbefore last hlog
    rw [List.mem_singleton.1 hlog]
    exact hlast before hbefore
  · intro segment
    rw [List.mem_append, List.mem_singleton, h.mem_complete, has_insert_location_iff hplaces,
      or_and_right]
    refine or_congr_right ⟨?_, fun hsegment => hsegment.1.1⟩
    rintro rfl
    exact ⟨⟨rfl, hkind⟩, hstop⟩
  · intro segment
    rw [h.mem_current, has_insert_location_iff hplaces, or_and_right]
    refine (or_iff_left ?_).symm
    rintro ⟨⟨rfl, -⟩, hsegment⟩
    exact hstop hsegment

/-- A complete log is removed. -/
theorem erase_complete {log : Segment} (h : journal.Lists files checkpoints complete current)
    (hplaces : journal.Places log) (hkind : log.kind = .log) (hstop : log.stop ≠ unknownStop) :
    journal.Lists (files.erase log.location) checkpoints (complete.filter (· ≠ log)) current := by
  refine ⟨h.checkpoints_sorted, ?_, h.complete_sorted.filter _, ?_, ?_⟩
  · intro segment
    rw [h.mem_checkpoints, has_erase_of_kind_ne hplaces (hkind ▸ nofun)]
  · intro segment
    rw [List.mem_filter, h.mem_complete, has_erase_location_iff hplaces, and_right_comm,
      decide_eq_true_eq]
  · intro segment
    rw [h.mem_current, has_erase_location_iff hplaces, and_right_comm]
    refine (and_iff_left_of_imp ?_).symm
    rintro hsegment rfl
    exact hstop hsegment.2

/-- A checkpoint is put in place. -/
theorem insert_checkpoint {checkpoint : Segment} {value : Bytes} {checkpoints' : List Segment}
    (h : journal.Lists files checkpoints complete current)
    (hplaces : journal.Places checkpoint) (hkind : checkpoint.kind = .checkpoint)
    (hsorted : checkpoints'.Pairwise fun a b => a.precedes b = true)
    (hmem : ∀ segment, segment ∈ checkpoints' ↔ segment ∈ checkpoints ∨ segment = checkpoint) :
    journal.Lists (files.insert checkpoint.location value) checkpoints' complete current := by
  have hother : checkpoint.kind ≠ .log := hkind ▸ nofun
  refine ⟨hsorted, ?_, h.complete_sorted, ?_, ?_⟩
  · intro segment
    rw [hmem, has_insert_location_iff hplaces, h.mem_checkpoints]
    refine or_congr_right ⟨?_, fun hsegment => hsegment.1⟩
    rintro rfl
    exact ⟨rfl, hkind⟩
  · intro segment
    rw [h.mem_complete, has_insert_of_kind_ne hplaces hother]
  · intro segment
    rw [h.mem_current, has_insert_of_kind_ne hplaces hother]

/-- A checkpoint beside logs without any is the only one. -/
theorem insert_only_checkpoint {checkpoint : Segment} {value : Bytes}
    (h : journal.Lists files [] complete current)
    (hplaces : journal.Places checkpoint) (hkind : checkpoint.kind = .checkpoint) :
    journal.Lists (files.insert checkpoint.location value) [checkpoint] complete current :=
  h.insert_checkpoint hplaces hkind (List.pairwise_singleton _ _) fun segment => by
    rw [List.mem_singleton, or_iff_right List.not_mem_nil]

/-- The current log holds what it held before a checkpoint was put in place. -/
theorem get?_insert_checkpoint {checkpoint log : Segment} {value : Bytes}
    (h : journal.Lists files checkpoints complete (some log))
    (hplaces : journal.Places checkpoint) (hkind : checkpoint.kind = .checkpoint) :
    (files.insert checkpoint.location value).get? log.location = files.get? log.location := by
  rw [PathMap.get?_insert, if_neg]
  exact h.has_current.1.ne_of_kind_ne hplaces (hkind ▸ nofun)

/-- The checkpoints with one more can be put in order. -/
theorem exists_checkpoints {checkpoint : Segment}
    (h : journal.Lists files checkpoints complete current)
    (hplaces : journal.Places checkpoint) (hkind : checkpoint.kind = .checkpoint) :
    ∃ checkpoints' : List Segment, (checkpoints'.Pairwise fun a b => a.precedes b = true) ∧
      ∀ segment, segment ∈ checkpoints' ↔ segment ∈ checkpoints ∨ segment = checkpoint := by
  refine ⟨journal.segmentsIn .checkpoint (files.insert checkpoint.location []),
    pairwise_segmentsIn _ _ _, ?_⟩
  intro segment
  rw [mem_segmentsIn, has_insert_location_iff hplaces, h.mem_checkpoints]
  refine or_congr_right ⟨fun hsegment => hsegment.1, ?_⟩
  rintro rfl
  exact ⟨rfl, hkind⟩

/-- A checkpoint is removed. -/
theorem erase_checkpoint {checkpoint : Segment}
    (h : journal.Lists files checkpoints complete current)
    (hplaces : journal.Places checkpoint) (hkind : checkpoint.kind = .checkpoint) :
    journal.Lists (files.erase checkpoint.location) (checkpoints.filter (· ≠ checkpoint))
      complete current := by
  have hother : checkpoint.kind ≠ .log := hkind ▸ nofun
  refine ⟨h.checkpoints_sorted.filter _, ?_, h.complete_sorted, ?_, ?_⟩
  · intro segment
    rw [List.mem_filter, h.mem_checkpoints, has_erase_location_iff hplaces, decide_eq_true_eq]
  · intro segment
    rw [h.mem_complete, has_erase_of_kind_ne hplaces hother]
  · intro segment
    rw [h.mem_current, has_erase_of_kind_ne hplaces hother]

end Lists

end Journal

end SegmentedJournal
