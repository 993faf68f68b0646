/-!
# Media — maps from paths

Finite maps from paths, kept in the order of the paths.  A map is what it looks up (`ext`), so
maps built in different ways are equal when they agree on every path, and the listing of a map is
sorted by construction.  Paths that begin alike therefore stand together, and a scan that ends at
the first one that does not begin so finds them all (`scan_eq_filter`).
-/

namespace SegmentedJournal

/-- A finite map from paths to values, in the order of the paths. -/
structure PathMap (α : Type) where
  /-- The paths with their values. -/
  entries : List (String × α)
  /-- No path comes twice, and each stands before the greater ones. -/
  ordered : entries.Pairwise fun a b => a.1 < b.1

namespace PathMap

variable {α : Type}

/-- The map without paths. -/
def empty : PathMap α := ⟨[], .nil⟩

/-- The value at a path. -/
def get? (map : PathMap α) (path : String) : Option α :=
  (map.entries.find? fun entry => entry.1 = path).map Prod.snd

/-- Whether the map has a value at a path. -/
def contains (map : PathMap α) (path : String) : Bool :=
  (map.get? path).isSome

/-- The paths that have values, in order. -/
def paths (map : PathMap α) : List String :=
  map.entries.map Prod.fst

/-- The entries with one more, in its place; an entry at the same path gives way. -/
def insertInto (path : String) (value : α) : List (String × α) → List (String × α)
  | [] => [(path, value)]
  | entry :: rest =>
    if path < entry.1 then (path, value) :: entry :: rest
    else if path = entry.1 then (path, value) :: rest
    else entry :: insertInto path value rest

theorem mem_insertInto {path : String} {value : α} {entries : List (String × α)}
    {entry : String × α} (h : entry ∈ insertInto path value entries) :
    entry = (path, value) ∨ entry ∈ entries := by
  induction entries with
  | nil => exact .inl (List.mem_singleton.1 h)
  | cons head rest ih =>
    unfold insertInto at h
    split at h
    · exact (List.mem_cons.1 h).imp_right id
    · split at h
      · exact (List.mem_cons.1 h).imp_right (List.mem_cons_of_mem _)
      · rcases List.mem_cons.1 h with rfl | h
        · exact .inr List.mem_cons_self
        · exact (ih h).imp_right (List.mem_cons_of_mem _)

theorem ordered_insertInto (path : String) (value : α) {entries : List (String × α)}
    (h : entries.Pairwise fun a b => a.1 < b.1) :
    (insertInto path value entries).Pairwise fun a b => a.1 < b.1 := by
  induction entries with
  | nil => exact List.pairwise_singleton _ _
  | cons head rest ih =>
    obtain ⟨hhead, hrest⟩ := List.pairwise_cons.1 h
    unfold insertInto
    split
    · next hlt =>
      refine List.pairwise_cons.2 ⟨fun entry hentry => ?_, h⟩
      rcases List.mem_cons.1 hentry with rfl | hentry
      · exact hlt
      · exact String.lt_trans hlt (hhead entry hentry)
    · next hnot =>
      split
      · next heq => exact List.pairwise_cons.2 ⟨fun entry hentry => heq ▸ hhead entry hentry, hrest⟩
      · next hne =>
        refine List.pairwise_cons.2 ⟨fun entry hentry => ?_, ih hrest⟩
        rcases mem_insertInto hentry with rfl | hentry
        · rcases String.le_total head.1 path with hle | hle
          · exact String.not_le.1 fun hge => hne (String.le_antisymm hge hle)
          · exact absurd (String.not_le.1 fun hge => hne (String.le_antisymm hle hge)) hnot
        · exact hhead entry hentry

/-- The map with a value at a path. -/
def insert (map : PathMap α) (path : String) (value : α) : PathMap α :=
  ⟨insertInto path value map.entries, ordered_insertInto path value map.ordered⟩

/-- The map without a path. -/
def erase (map : PathMap α) (path : String) : PathMap α :=
  ⟨map.entries.filter fun entry => entry.1 ≠ path, map.ordered.filter _⟩

/-! ### Looking up -/

theorem get?_empty (path : String) : (empty : PathMap α).get? path = none := rfl

theorem find?_insertInto (path : String) (value : α) (entries : List (String × α))
    (other : String) :
    ((insertInto path value entries).find? fun entry => entry.1 = other).map Prod.snd =
      if path = other then some value
      else (entries.find? fun entry => entry.1 = other).map Prod.snd := by
  induction entries with
  | nil => by_cases h : path = other <;> simp [insertInto, h]
  | cons head rest ih =>
    unfold insertInto
    split
    · by_cases h : path = other <;> simp [h]
    · split
      · next heq => by_cases h : path = other <;> simp [h, ← heq]
      · next hne =>
        by_cases hhead : head.1 = other
        · have : ¬ path = other := fun h => hne (h.trans hhead.symm)
          simp [hhead, this]
        · simpa [hhead] using ih

@[simp] theorem get?_insert (map : PathMap α) (path : String) (value : α) (other : String) :
    (map.insert path value).get? other = if path = other then some value else map.get? other :=
  find?_insertInto path value map.entries other

@[simp] theorem get?_erase (map : PathMap α) (path other : String) :
    (map.erase path).get? other = if path = other then none else map.get? other := by
  unfold get? erase
  rw [List.find?_filter]
  by_cases h : path = other
  · subst h
    rw [if_pos rfl, Option.map_eq_none_iff, List.find?_eq_none]
    simp
  · rw [if_neg h]
    congr 2
    funext entry
    by_cases hentry : entry.1 = other
    · simp [hentry, Ne.symm h]
    · simp [hentry]

theorem mem_entries_iff {map : PathMap α} {path : String} {value : α} :
    (path, value) ∈ map.entries ↔ map.get? path = some value := by
  obtain ⟨entries, ordered⟩ := map
  unfold get?
  simp only
  induction entries with
  | nil => simp
  | cons head rest ih =>
    obtain ⟨hhead, hrest⟩ := List.pairwise_cons.1 ordered
    by_cases h : head.1 = path
    · have hrest : (path, value) ∉ rest := fun hmem =>
        String.lt_irrefl path (by simpa [h] using hhead _ hmem)
      simp [h, hrest, Prod.ext_iff, eq_comm]
    · simp [h, ih hrest, Prod.ext_iff, Ne.symm h]

/-- A map is determined by what it looks up. -/
theorem ext {a b : PathMap α} (h : ∀ path, a.get? path = b.get? path) : a = b := by
  have hmem : ∀ entry, entry ∈ a.entries ↔ entry ∈ b.entries := fun ⟨path, value⟩ => by
    rw [mem_entries_iff, mem_entries_iff, h path]
  obtain ⟨as, ha⟩ := a
  obtain ⟨bs, hb⟩ := b
  simp only [mk.injEq]
  clear h
  simp only at hmem
  induction as generalizing bs with
  | nil =>
    cases bs with
    | nil => rfl
    | cons head rest => exact absurd ((hmem head).2 List.mem_cons_self) (by simp)
  | cons head rest ih =>
    cases bs with
    | nil => exact absurd ((hmem head).1 List.mem_cons_self) (by simp)
    | cons head' rest' =>
      obtain ⟨hlt, hrest⟩ := List.pairwise_cons.1 ha
      obtain ⟨hlt', hrest'⟩ := List.pairwise_cons.1 hb
      have hhead : head = head' := by
        rcases List.mem_cons.1 ((hmem head).1 List.mem_cons_self) with h | h
        · exact h
        · rcases List.mem_cons.1 ((hmem head').2 List.mem_cons_self) with h' | h'
          · exact h'.symm
          · exact absurd (hlt' head h) (String.lt_asymm (hlt head' h'))
      subst hhead
      congr 1
      refine ih hrest rest' hrest' fun entry => ⟨fun hin => ?_, fun hin => ?_⟩
      · rcases List.mem_cons.1 ((hmem entry).1 (List.mem_cons_of_mem _ hin)) with h | h
        · subst h; exact absurd (hlt entry hin) (String.lt_irrefl _)
        · exact h
      · rcases List.mem_cons.1 ((hmem entry).2 (List.mem_cons_of_mem _ hin)) with h | h
        · subst h; exact absurd (hlt' entry hin) (String.lt_irrefl _)
        · exact h

/-! ### Scanning -/

/-- The paths that begin with `front`, found from the first one not below it on; the first that
does not begin so ends the scan. -/
def scan (map : PathMap α) (front : String) : List String :=
  (map.paths.dropWhile (· < front)).takeWhile fun path => front.toList.isPrefixOf path.toList

/-- What stands between `front` and something that begins with it begins with it. -/
theorem isPrefix_of_lt {front chars rest : List Char} (hfront : ¬chars < front)
    (hlt : chars < front ++ rest) : front <+: chars := by
  induction front generalizing chars with
  | nil => exact List.nil_prefix
  | cons c front ih =>
    cases chars with
    | nil => exact absurd (List.nil_lt_cons c front) hfront
    | cons d chars =>
      rw [List.cons_lt_cons_iff, not_or] at hfront
      obtain ⟨hd, hchars⟩ := hfront
      rcases List.cons_lt_cons_iff.1 hlt with hdc | ⟨rfl, hrest⟩
      · exact absurd hdc hd
      · exact List.cons_prefix_cons.2 ⟨rfl, ih (fun h => hchars ⟨rfl, h⟩) hrest⟩

/-- Taking up to the first element without a property misses none that has it, if each element
has it where a later one does. -/
theorem takeWhile_eq_filter {β : Type} {p : β → Bool} {elements : List β}
    (hdown : elements.Pairwise fun a b => p b = true → p a = true) :
    elements.takeWhile p = elements.filter p := by
  induction elements with
  | nil => rfl
  | cons first rest ih =>
    obtain ⟨hfirst, hrest⟩ := List.pairwise_cons.1 hdown
    by_cases h : p first = true
    · rw [List.takeWhile_cons_of_pos h, List.filter_cons_of_pos h, ih hrest]
    · rw [List.takeWhile_cons_of_neg h, List.filter_cons_of_neg h, eq_comm, List.filter_eq_nil_iff]
      exact fun other hother hp => h (hfirst other hother hp)

theorem ordered_paths (map : PathMap α) : map.paths.Pairwise (· < ·) :=
  List.pairwise_map.2 map.ordered

/-- A scan misses no path that begins so. -/
theorem scan_eq_filter (map : PathMap α) (front : String) :
    map.scan front = map.paths.filter fun path => front.toList.isPrefixOf path.toList := by
  unfold scan
  have hordered := ordered_paths map
  generalize map.paths = paths at hordered ⊢
  induction paths with
  | nil => rfl
  | cons path rest ih =>
    obtain ⟨hpath, hrest⟩ := List.pairwise_cons.1 hordered
    by_cases hlt : path < front
    · have hnot : ¬front.toList.isPrefixOf path.toList = true := fun h =>
        List.IsPrefix.le (List.isPrefixOf_iff_prefix.1 h) hlt
      rw [List.dropWhile_cons, if_pos (decide_eq_true hlt), List.filter_cons, if_neg hnot, ih hrest]
    · rw [List.dropWhile_cons, if_neg (by simpa using hlt)]
      refine takeWhile_eq_filter (hordered.imp_of_mem fun {a b} ha _ hab hb => ?_)
      obtain ⟨back, hback⟩ := List.isPrefixOf_iff_prefix.1 hb
      have hnot : ¬a < front := by
        intro h
        rcases List.mem_cons.1 ha with rfl | ha
        · exact hlt h
        · exact hlt (String.lt_trans (hpath a ha) h)
      rw [String.lt_iff, ← hback] at hab
      exact List.isPrefixOf_iff_prefix.2 (isPrefix_of_lt hnot hab)

end PathMap

end SegmentedJournal
