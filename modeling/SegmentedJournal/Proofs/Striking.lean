import SegmentedJournal.Journal.Collection
import SegmentedJournal.Proofs.Calm
/-!
# Removals that fail

A failure that is armed hits the next deletion.  So that any deletion of a pass can be the first to
fail, failures may be armed between deletions, too (`Journal.removeAllArming`); without them this is
the removal itself (`Journal.removeAllArming_nil`).  Segments whose files are there are removed one
after the other.  Either no deletion is struck and all are gone (`Journal.Swept`), or the removal
stops at the first that is, and those before it are gone (`Journal.Stopped`).
-/

namespace SegmentedJournal

/-! ### Files without some paths -/

namespace PathMap

variable {α : Type}

/-- The map without some paths. -/
def without (map : PathMap α) (paths : List String) : PathMap α :=
  ⟨map.entries.filter fun entry => entry.1 ∉ paths, map.ordered.filter _⟩

@[simp] theorem get?_without (map : PathMap α) (paths : List String) (other : String) :
    (map.without paths).get? other = if other ∈ paths then none else map.get? other := by
  unfold get? without
  rw [List.find?_filter]
  by_cases h : other ∈ paths
  · rw [if_pos h, Option.map_eq_none_iff, List.find?_eq_none]
    intro entry _ hentry
    simp only [decide_eq_true_eq] at hentry
    exact hentry.1 (hentry.2 ▸ h)
  · rw [if_neg h]
    congr 2
    funext entry
    by_cases hentry : entry.1 = other
    · simp [hentry, h]
    · simp [hentry]

@[simp] theorem without_nil (map : PathMap α) : map.without [] = map :=
  ext fun other => by rw [get?_without, if_neg List.not_mem_nil]

theorem without_cons (map : PathMap α) (path : String) (paths : List String) :
    map.without (path :: paths) = (map.erase path).without paths := by
  refine ext fun other => ?_
  rw [get?_without, get?_without, get?_erase]
  by_cases hpath : path = other
  · simp [hpath]
  · simp [hpath, Ne.symm hpath]

theorem erase_of_absent {map : PathMap α} {path : String} (h : map.contains path = false) :
    map.erase path = map := by
  refine ext fun other => ?_
  rw [get?_erase]
  split
  · next heq => exact heq ▸ (Option.isSome_eq_false_iff.1 h |> Option.isNone_iff_eq_none.1).symm
  · rfl

theorem contains_without {map : PathMap α} {paths : List String} {other : String} :
    (map.without paths).contains other = true ↔ other ∉ paths ∧ map.contains other = true := by
  rw [contains, get?_without, contains]
  split <;> simp_all

end PathMap

/-! ### Deletions that fail -/

/-- The medium with more failures waiting. -/
def Medium.arm (faults : List Fault) (medium : Medium Memory) : Medium Memory :=
  { medium with storage := { medium.storage with faults := medium.storage.faults ++ faults } }

theorem Medium.arm_nil : Medium.arm [] = id := by
  funext medium
  rw [Medium.arm, List.append_nil]
  rfl

/-- By the deletion numbered `i` a failure is armed that hits a deletion. -/
def Medium.Struck (medium : Medium Memory) (arming : Nat → List Fault) (i : Nat) : Prop :=
  .delete ∈ medium.storage.faults ∨ ∃ j ≤ i, .delete ∈ arming j

namespace Medium.Struck

variable {medium after : Medium Memory} {arming : Nat → List Fault}

theorem zero_iff : medium.Struck arming 0 ↔ .delete ∈ (medium.arm (arming 0)).storage.faults := by
  simp [Struck, arm]

/-- A deletion that was not struck leaves the later ones as they were. -/
theorem succ_iff (hfaults : after.storage.faults = (medium.arm (arming 0)).storage.faults)
    (hzero : ¬medium.Struck arming 0) (i : Nat) :
    after.Struck (fun j => arming (j + 1)) i ↔ medium.Struck arming (i + 1) := by
  have hafter : .delete ∉ after.storage.faults := by rwa [hfaults, ← zero_iff]
  constructor
  · rintro (h | ⟨j, hj, h⟩)
    · exact absurd h hafter
    · exact .inr ⟨j + 1, Nat.succ_le_succ hj, h⟩
  · rintro (h | ⟨j, hj, h⟩)
    · exact absurd (.inl h) hzero
    · cases j with
      | zero => exact absurd (.inr ⟨0, Nat.le_refl 0, h⟩) hzero
      | succ j => exact .inr ⟨j, Nat.le_of_succ_le_succ hj, h⟩

end Medium.Struck

namespace Journal

/-- The removal of segments, with failures that are armed before each. -/
def removeAllArming (arming : Nat → List Fault) :
    List Segment → Action JournalError (Medium Memory) (List String)
  | [] => return []
  | segment :: segments => do
    modify (Medium.arm (arming 0))
    let removed ← remove segment.location
    let others ← removeAllArming (fun i => arming (i + 1)) segments
    return if removed then segment.location :: others else others

theorem removeAllArming_nil (segments : List Segment) :
    removeAllArming (fun _ => []) segments = removeAll segments := by
  induction segments with
  | nil => rfl
  | cons segment segments ih =>
    rw [removeAllArming, removeAll, ih, Medium.arm_nil]
    rfl

theorem removeAllArming_append (arming : Nat → List Fault) (segments rest : List Segment) :
    removeAllArming arming (segments ++ rest) = (do
      let removed ← removeAllArming arming segments
      let removed' ← removeAllArming (fun i => arming (segments.length + i)) rest
      return removed ++ removed') := by
  induction segments generalizing arming with
  | nil => simp [removeAllArming]
  | cons segment segments ih =>
    simp only [List.cons_append, removeAllArming, ih, bind_assoc, pure_bind, List.length_cons,
      Nat.add_right_comm _ 1]
    congr 1
    funext _
    congr 1
    funext removed
    cases removed <;> simp

theorem removeAllArming_take_drop (arming : Nat → List Fault) (segments : List Segment)
    (count : Nat) :
    removeAllArming arming segments = (do
      let removed ← removeAllArming arming (segments.take count)
      let removed' ← removeAllArming (fun i => arming (count + i)) (segments.drop count)
      return removed ++ removed') := by
  rcases Nat.le_total count segments.length with hle | hle
  · conv => lhs; rw [← List.take_append_drop count segments, removeAllArming_append]
    rw [List.length_take_of_le hle]
  · rw [List.take_of_length_le hle, List.drop_eq_nil_of_le hle]
    simp [removeAllArming]

variable {medium : Medium Memory} {arming : Nat → List Fault}

/-- A deletion is struck, or it removes what is there. -/
theorem ensures_remove_exact (path : String) (medium : Medium Memory) :
    (remove path).Ensures medium
      (fun removed after => .delete ∉ medium.storage.faults ∧
        removed = medium.storage.files.contains path ∧
        after.storage = { medium.storage with files := medium.storage.files.erase path } ∧
        after.callFaults = medium.callFaults)
      (fun e after => .delete ∈ medium.storage.faults ∧ e = .medium path (.injected "delete" path) ∧
        after.storage.files = medium.storage.files ∧ after.callFaults = medium.callFaults) := by
  simp only [remove, Action.ensures_bind, Action.ensures_attempt, Medium.delete,
    Medium.ensures_counted, Medium.ensures_onStorage]
  simp only [Storage.delete, Memory.delete, Fault.take?]
  by_cases hstruck : Fault.delete ∈ medium.storage.faults
  · rw [if_pos hstruck]
    exact ⟨hstruck, rfl, rfl, rfl⟩
  · rw [if_neg hstruck]
    cases hpresent : medium.storage.files.contains path with
    | true => exact ⟨hstruck, rfl, rfl, rfl⟩
    | false =>
      refine ⟨hstruck, rfl, ?_, rfl⟩
      rw [PathMap.erase_of_absent hpresent]

/-- The segments are gone, and no deletion was struck. -/
structure Swept (medium : Medium Memory) (arming : Nat → List Fault) (segments : List Segment)
    (after : Medium Memory) : Prop where
  /-- Their files are gone, and no others. -/
  files_eq : after.storage.files = medium.storage.files.without (segments.map Segment.location)
  /-- Failures of calls are armed as before. -/
  callFaults_eq : after.callFaults = medium.callFaults
  /-- No deletion was struck. -/
  unstruck : ∀ i < segments.length, ¬medium.Struck arming i
  /-- A later one is struck if it was to be. -/
  struck_iff : ∀ i, after.Struck (fun j => arming (segments.length + j)) i ↔
    medium.Struck arming (segments.length + i)

/-- The deletion numbered `i` was the first to be struck. -/
structure Stopped (medium : Medium Memory) (arming : Nat → List Fault) (segments : List Segment)
    (i : Nat) (e : JournalError) (after : Medium Memory) : Prop where
  /-- The error is that of the deletion. -/
  error_eq : ∃ segment, segments[i]? = some segment ∧
    e = .medium segment.location (.injected "delete" segment.location)
  /-- The files of the segments before it are gone, and no others. -/
  files_eq : after.storage.files =
    medium.storage.files.without ((segments.take i).map Segment.location)
  /-- Failures of calls are armed as before. -/
  callFaults_eq : after.callFaults = medium.callFaults
  /-- It was struck. -/
  struck : medium.Struck arming i
  /-- None before it was. -/
  unstruck : ∀ j < i, ¬medium.Struck arming j

/-- Segments whose files are there are removed one after the other, up to the first deletion that
is struck. -/
theorem ensures_removeAllArming {segments : List Segment}
    (hpresent : ∀ segment ∈ segments, medium.storage.files.contains segment.location = true)
    (hapart : segments.Pairwise fun a b => a.location ≠ b.location) :
    (removeAllArming arming segments).Ensures medium
      (fun removed after => removed = segments.map Segment.location ∧
        Swept medium arming segments after)
      (fun e after => ∃ i, Stopped medium arming segments i e after) := by
  induction segments generalizing medium arming with
  | nil =>
    refine ⟨rfl, (PathMap.without_nil _).symm, rfl, fun i hi => absurd hi (Nat.not_lt_zero i), ?_⟩
    intro i
    simp only [List.length_nil, Nat.zero_add]
  | cons segment segments ih =>
    obtain ⟨hfirst, hrest⟩ := List.forall_mem_cons.1 hpresent
    obtain ⟨hne, hapart⟩ := List.pairwise_cons.1 hapart
    rw [removeAllArming, Action.ensures_bind, Action.ensures_modify, Action.ensures_bind]
    refine (ensures_remove_exact segment.location (medium.arm (arming 0))).mono ?_ ?_
    · rintro removed middle ⟨hunstruck, rfl, hstorage, hcalls⟩
      have hfiles : middle.storage.files = medium.storage.files.erase segment.location := by
        rw [hstorage]
        rfl
      have hzero : ¬medium.Struck arming 0 := fun h => hunstruck (Medium.Struck.zero_iff.1 h)
      have hfaults : middle.storage.faults = (medium.arm (arming 0)).storage.faults := by
        rw [hstorage]
      have hsucc := Medium.Struck.succ_iff hfaults hzero
      have hunstruck (i : Nat) (h : ∀ j < i, ¬middle.Struck (fun j => arming (j + 1)) j) :
          ∀ j < i + 1, ¬medium.Struck arming j := by
        intro j hj
        cases j with
        | zero => exact hzero
        | succ j => exact fun h' => h j (Nat.lt_of_succ_lt_succ hj) ((hsucc j).2 h')
      have hmiddle : ∀ other ∈ segments, middle.storage.files.contains other.location = true := by
        intro other hother
        rw [hfiles, PathMap.contains_erase]
        exact ⟨hne other hother, hrest other hother⟩
      rw [Action.ensures_bind]
      refine (ih hmiddle hapart).mono ?_ ?_
      · rintro _ after ⟨rfl, hswept⟩
        have hcontains : (medium.arm (arming 0)).storage.files.contains segment.location = true :=
          hfirst
        rw [if_pos hcontains]
        refine ⟨rfl, ?_, hswept.callFaults_eq.trans hcalls, hunstruck _ hswept.unstruck, ?_⟩
        · rw [hswept.files_eq, hfiles, List.map_cons, PathMap.without_cons]
        · intro i
          have hiff := (hswept.struck_iff i).trans (hsucc (segments.length + i))
          simpa only [List.length_cons, Nat.add_right_comm _ 1] using hiff
      · rintro e after ⟨i, ⟨other, hother, rfl⟩, hfiles', hcalls', hstruck, hbefore⟩
        refine ⟨i + 1, ⟨other, hother, rfl⟩, ?_, hcalls'.trans hcalls, (hsucc i).1 hstruck,
          hunstruck i hbefore⟩
        rw [hfiles', hfiles, List.take_succ_cons, List.map_cons, PathMap.without_cons]
    · rintro e after ⟨hstruck, rfl, hfiles, hcalls⟩
      refine ⟨0, ⟨segment, rfl, rfl⟩, ?_, hcalls, Medium.Struck.zero_iff.2 hstruck,
        fun j hj => absurd hj (Nat.not_lt_zero j)⟩
      rw [hfiles, List.take_zero, List.map_nil, PathMap.without_nil]
      rfl

variable {middle after : Medium Memory} {segments rest : List Segment} {i : Nat} {e : JournalError}

theorem Swept.struck_before (h : Swept medium arming segments middle)
    (hrest : ∀ j < i, ¬middle.Struck (fun j => arming (segments.length + j)) j) :
    ∀ j < segments.length + i, ¬medium.Struck arming j := by
  intro j hj
  by_cases hlt : j < segments.length
  · exact h.unstruck j hlt
  · obtain ⟨k, rfl⟩ := Nat.exists_eq_add_of_le (Nat.le_of_not_lt hlt)
    exact fun hstruck => hrest k (Nat.lt_of_add_lt_add_left hj) ((h.struck_iff k).2 hstruck)

theorem without_append (files : PathMap Bytes) (segments rest : List Segment) :
    (files.without (segments.map Segment.location)).without (rest.map Segment.location) =
      files.without ((segments ++ rest).map Segment.location) := by
  refine PathMap.ext fun path => ?_
  simp only [PathMap.get?_without, List.map_append, List.mem_append]
  by_cases h : path ∈ rest.map Segment.location <;> simp [h]

/-- Segments that are removed behind others are removed together with them. -/
theorem Swept.append (h : Swept medium arming segments middle)
    (h' : Swept middle (fun j => arming (segments.length + j)) rest after) :
    Swept medium arming (segments ++ rest) after := by
  refine ⟨?_, h'.callFaults_eq.trans h.callFaults_eq, ?_, fun j => ?_⟩
  · rw [h'.files_eq, h.files_eq, without_append]
  · rw [List.length_append]
    exact h.struck_before h'.unstruck
  · have hiff := (h'.struck_iff j).trans (h.struck_iff (rest.length + j))
    simpa only [List.length_append, Nat.add_assoc] using hiff

theorem Swept.stopped (h : Swept medium arming segments middle)
    (h' : Stopped middle (fun j => arming (segments.length + j)) rest i e after) :
    Stopped medium arming (segments ++ rest) (segments.length + i) e after := by
  obtain ⟨⟨segment, hsegment, rfl⟩, hfiles, hcalls, hstruck, hbefore⟩ := h'
  refine ⟨⟨segment, ?_, rfl⟩, ?_, hcalls.trans h.callFaults_eq, (h.struck_iff i).1 hstruck,
    h.struck_before hbefore⟩
  · rw [List.getElem?_append_right (Nat.le_add_right ..), Nat.add_sub_cancel_left, hsegment]
  · rw [hfiles, h.files_eq, without_append, List.take_length_add_append]

theorem Stopped.append (h : Stopped medium arming segments i e after) (rest : List Segment) :
    Stopped medium arming (segments ++ rest) i e after := by
  obtain ⟨⟨segment, hsegment, rfl⟩, hfiles, hcalls, hstruck, hbefore⟩ := h
  obtain ⟨hlt, -⟩ := List.getElem?_eq_some_iff.1 hsegment
  refine ⟨⟨segment, ?_, rfl⟩, ?_, hcalls, hstruck, hbefore⟩
  · rw [List.getElem?_append_left hlt, hsegment]
  · rw [hfiles, List.take_append_of_le_length (Nat.le_of_lt hlt)]

theorem Swept.of_noted (hnoted : Medium.Noted medium middle)
    (h : Swept middle arming segments after) : Swept medium arming segments after := by
  obtain ⟨hfiles, hcalls, hunstruck, hiff⟩ := h
  unfold Medium.Struck at *
  rw [hnoted.storage_eq] at hfiles hunstruck hiff
  exact ⟨hfiles, hcalls.trans hnoted.callFaults_eq, hunstruck, hiff⟩

theorem Stopped.of_noted (hnoted : Medium.Noted medium middle)
    (h : Stopped middle arming segments i e after) : Stopped medium arming segments i e after := by
  obtain ⟨herror, hfiles, hcalls, hstruck, hbefore⟩ := h
  unfold Medium.Struck at *
  rw [hnoted.storage_eq] at hfiles hstruck hbefore
  exact ⟨herror, hfiles, hcalls.trans hnoted.callFaults_eq, hstruck, hbefore⟩

end Journal

end SegmentedJournal
