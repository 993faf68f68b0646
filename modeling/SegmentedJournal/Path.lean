/-!
# Paths

Paths are strings of components between slashes.  A directory's children are the paths that
extend it by one component: `child?` recognises them and gives their names, and undoes `join`
(`child?_join`).
-/

namespace SegmentedJournal.Path

/-- The path of `name` in the directory `dir`; no slash is doubled. -/
def join (dir name : String) : String :=
  if dir.toList.getLast? = some '/' then dir ++ name else dir ++ "/" ++ name

/-- The last component of a path. -/
def fileName (path : String) : String :=
  String.ofList (path.toList.reverse.takeWhile (· ≠ '/')).reverse

/-- The name of `path` in `dir`, if it lies directly in that directory. -/
def child? (dir path : String) : Option String :=
  match (join dir "").toList.isPrefixOf? path.toList with
  | none => none
  | some name => if '/' ∈ name then none else some (String.ofList name)

/-- A directory's path with the slashes at its end taken off; the root stays a slash. -/
def trimmed (dir : String) : String :=
  match dir.toList.reverse.dropWhile (· = '/') with
  | [] => "/"
  | kept => String.ofList kept.reverse

theorem toList_join (dir name : String) :
    (join dir name).toList = (join dir "").toList ++ name.toList := by
  unfold join
  split <;> simp

theorem isPrefixOf?_append (front rest : List Char) :
    front.isPrefixOf? (front ++ rest) = some rest := by
  induction front with
  | nil => cases rest <;> rfl
  | cons c front ih =>
    change (if c == c then front.isPrefixOf? (front ++ rest) else none) = some rest
    rw [BEq.rfl, if_pos rfl, ih]

theorem isPrefixOf?_eq_some_iff {front path rest : List Char} :
    front.isPrefixOf? path = some rest ↔ path = front ++ rest := by
  refine ⟨fun h => ?_, fun h => h ▸ isPrefixOf?_append front rest⟩
  induction front generalizing path with
  | nil =>
    cases path <;> cases h <;> rfl
  | cons c front ih =>
    cases path with
    | nil => cases h
    | cons d path =>
      change (if c == d then front.isPrefixOf? path else none) = some rest at h
      split at h
      · next hcd => rw [ih h, beq_iff_eq.1 hcd]; rfl
      · cases h

theorem child?_join (dir name : String) (h : '/' ∉ name.toList) :
    child? dir (join dir name) = some name := by
  rw [child?, toList_join dir name, isPrefixOf?_append]
  simp [h, String.ofList_toList]

theorem takeWhile_append_of_forall (p : Char → Bool) (front rest : List Char)
    (h : ∀ c ∈ front, p c = true) :
    (front ++ rest).takeWhile p = front ++ rest.takeWhile p := by
  induction front with
  | nil => rfl
  | cons c front ih =>
    have hc : p c = true := h c List.mem_cons_self
    simp [hc, ih fun d hd => h d (List.mem_cons_of_mem _ hd)]

theorem fileName_join (dir name : String) (h : '/' ∉ name.toList) :
    fileName (join dir name) = name := by
  have hslash : ∃ front, (join dir "").toList = front ++ ['/'] := by
    unfold join
    split
    · next hlast =>
      obtain ⟨front, hfront⟩ := List.getLast?_eq_some_iff.1 hlast
      exact ⟨front, by simpa using hfront⟩
    · exact ⟨dir.toList, by simp⟩
  obtain ⟨front, hfront⟩ := hslash
  have hname : ∀ c ∈ name.toList.reverse, (decide (c ≠ '/')) = true := by
    intro c hc
    have hmem : c ∈ name.toList := List.mem_reverse.1 hc
    exact decide_eq_true fun hEq => h (hEq ▸ hmem)
  rw [fileName, toList_join, hfront, List.reverse_append, List.reverse_append,
    takeWhile_append_of_forall _ _ _ hname]
  simp [String.ofList_toList]

end SegmentedJournal.Path
