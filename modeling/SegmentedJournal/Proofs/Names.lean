import SegmentedJournal.Journal.Snapshot
/-!
# Names and places

A segment's name is read back as the range it was written for (`decodeName?_encodeName`), and a
path lies in a directory under one name only (`Path.child?_eq_some_iff`).  So a segment of a
journal is known by its location: two segments at one location cover the same range
and are of the same kind (`Journal.Places.eq_of_location`).
-/

namespace SegmentedJournal

/-! ### Paths -/

namespace Path

/-- A directory's children are what is joined to it. -/
theorem child?_eq_some_iff {dir path name : String} :
    child? dir path = some name ↔ path = join dir name ∧ '/' ∉ name.toList := by
  constructor
  · intro h
    unfold child? at h
    split at h
    · cases h
    · next rest hrest =>
      split at h
      · cases h
      · next hslash =>
        cases h
        refine ⟨String.toList_inj.1 ?_, by simpa using hslash⟩
        rw [toList_join, isPrefixOf?_eq_some_iff.1 hrest, String.toList_ofList]
  · intro h
    obtain ⟨rfl, hslash⟩ := h
    exact child?_join dir name hslash

theorem join_inj {dir name name' : String} (h : join dir name = join dir name') :
    name = name' := by
  have := congrArg String.toList h
  rw [toList_join, toList_join dir name'] at this
  exact String.toList_inj.1 (List.append_cancel_left this)

end Path

/-! ### Names of segments -/

namespace Hex

theorem mem_padded {count n : Nat} {c : Char} (h : c ∈ padded count n) : ∃ v < 16, c = digit v := by
  induction count generalizing n with
  | zero => cases h
  | succ count ih =>
      rcases List.mem_append.1 h with h | h
      · exact ih h
      · exact ⟨n % 16, Nat.mod_lt _ (by decide), List.mem_singleton.1 h⟩

theorem digit_ne {v : Nat} (h : v < 16) : digit v ≠ '-' ∧ digit v ≠ '/' := by
  revert v
  decide

end Hex

namespace Segment

theorem mem_encodeField {n : UInt64} {c : Char} (h : c ∈ encodeField n) : c ≠ '-' ∧ c ≠ '/' := by
  rcases List.mem_cons.1 h with rfl | h
  · decide
  · rcases List.mem_cons.1 h with rfl | h
    · decide
    · obtain ⟨v, hv, rfl⟩ := Hex.mem_padded h
      exact Hex.digit_ne hv

theorem splitAtDash?_append {front rest : List Char} (h : ∀ c ∈ front, c ≠ '-') :
    splitAtDash? (front ++ '-' :: rest) = some (front, rest) := by
  induction front with
  | nil => rfl
  | cons c front ih =>
      have hc : c ≠ '-' := h c List.mem_cons_self
      have hfront := ih fun d hd => h d (List.mem_cons_of_mem _ hd)
      simp [splitAtDash?, hc, hfront]

theorem decodeField?_encodeField (n : UInt64) : decodeField? (encodeField n) = some n := by
  have hlt : n.toNat < UInt64.size := n.toNat_lt
  have hparse := Hex.parse?_padded 16 n.toNat (by decide) hlt
  simp only [encodeField, decodeField?, hparse, Option.bind_some, if_pos hlt, UInt64.ofNat_toNat]

/-- A name that was written for a range is read as that range, or as none. -/
theorem decodeName?_encodeName_eq (start stop : UInt64) :
    decodeName? (encodeName start stop) =
      if start ≤ stop ∧ stop ≤ unknownStop then some (start, stop) else none := by
  have hsplit : splitAtDash? (encodeName start stop).toList =
      some (encodeField start, encodeField stop) := by
    rw [encodeName, String.toList_ofList]
    exact splitAtDash?_append fun c hc => (mem_encodeField hc).1
  simp [decodeName?, hsplit, decodeField?_encodeField]

theorem decodeName?_encodeName {start stop : UInt64} (h : start ≤ stop)
    (hstop : stop ≤ unknownStop) :
    decodeName? (encodeName start stop) = some (start, stop) := by
  rw [decodeName?_encodeName_eq, if_pos ⟨h, hstop⟩]

/-- No name stands for a range that is inverted or ends beyond the greatest stop. -/
theorem bounds_of_decodeName? {name : String} {start stop : UInt64}
    (h : decodeName? name = some (start, stop)) : start ≤ stop ∧ stop ≤ unknownStop := by
  unfold decodeName? at h
  simp only [Option.bind_eq_bind, Option.bind_eq_some_iff] at h
  obtain ⟨-, -, start, -, stop, -, h⟩ := h
  split at h
  · next hbounds =>
    cases h
    exact hbounds
  · cases h

theorem slash_notMem_encodeName (start stop : UInt64) : '/' ∉ (encodeName start stop).toList := by
  rw [encodeName, String.toList_ofList]
  intro h
  rcases List.mem_append.1 h with h | h
  · exact (mem_encodeField h).2 rfl
  · rcases List.mem_cons.1 h with h | h
    · exact absurd h (by decide)
    · exact (mem_encodeField h).2 rfl

end Segment

/-! ### Segments and their places -/

namespace Journal

/-- A segment of the journal, by its location and kind: the location lies directly in the
directory of the kind, under a name that stands for the range. -/
structure Places (journal : Journal) (segment : Segment) : Prop where
  /-- The location's name in its directory is the range's. -/
  named : ∃ name, Path.child? (journal.dirOf segment.kind) segment.location = some name ∧
    Segment.decodeName? name = some (segment.start, segment.stop)

variable {journal : Journal} {segment segment' : Segment}

namespace Places

theorem bounds (h : journal.Places segment) :
    segment.start ≤ segment.stop ∧ segment.stop ≤ unknownStop := by
  obtain ⟨name, -, hname⟩ := h.named
  exact Segment.bounds_of_decodeName? hname

/-- Segments of one kind at one location are the same. -/
theorem unique (h : journal.Places segment) (h' : journal.Places segment')
    (hkind : segment.kind = segment'.kind) (hlocation : segment.location = segment'.location) :
    segment = segment' := by
  obtain ⟨name, hchild, hname⟩ := h.named
  obtain ⟨name', hchild', hname'⟩ := h'.named
  rw [← hkind, ← hlocation, hchild] at hchild'
  cases hchild'
  rw [hname] at hname'
  cases segment
  cases segment'
  simp_all

end Places

theorem toList_join_join {location dir name : String} {c : Char}
    (hlast : dir.toList.getLast? = some c) (hc : c ≠ '/') :
    (Path.join (Path.join location dir) name).toList =
      (Path.join location "").toList ++ (dir.toList ++ '/' :: name.toList) := by
  have hjoin : (Path.join location dir).toList.getLast? = some c := by
    rw [Path.toList_join, List.getLast?_append, hlast]
    rfl
  have hne : (Path.join location dir).toList.getLast? ≠ some '/' := by
    rw [hjoin]
    exact fun h => hc (Option.some.inj h)
  rw [Path.join, if_neg hne]
  simp [Path.toList_join location dir]

/-- Nothing lies in the directory of the logs and in that of the checkpoints. -/
theorem join_dirOf_ne (journal : Journal) (name name' : String) :
    Path.join (journal.dirOf .log) name ≠ Path.join (journal.dirOf .checkpoint) name' := by
  intro h
  have h := congrArg String.toList h
  simp only [dirOf, logDir, checkpointDir] at h
  -- Behind what the two paths share, "logs" and "checkpoints" differ from the first letter on.
  rw [toList_join_join (c := 's') (by decide) (by decide),
    toList_join_join (c := 's') (by decide) (by decide)] at h
  have h := List.append_cancel_left h
  simp at h

namespace Places

theorem kind_unique (h : journal.Places segment) (h' : journal.Places segment')
    (hlocation : segment.location = segment'.location) : segment.kind = segment'.kind := by
  obtain ⟨name, hchild, -⟩ := h.named
  obtain ⟨name', hchild', -⟩ := h'.named
  have hjoin := (Path.child?_eq_some_iff.1 hchild).1
  have hjoin' := (Path.child?_eq_some_iff.1 hchild').1
  rw [← hlocation, hjoin] at hjoin'
  revert hjoin'
  cases segment.kind <;> cases segment'.kind <;> intro hjoin'
  · rfl
  · exact absurd hjoin' (join_dirOf_ne journal name name')
  · exact absurd hjoin'.symm (join_dirOf_ne journal name' name)
  · rfl

/-- Two segments of a journal are the same if their files are. -/
theorem eq_of_location (h : journal.Places segment) (h' : journal.Places segment')
    (hlocation : segment.location = segment'.location) : segment = segment' :=
  h.unique h' (h.kind_unique h' hlocation) hlocation

/-- A segment whose file has a log's name is that log. -/
theorem eq_log {start stop : UInt64} (h : journal.Places segment)
    (hlocation : segment.location = (journal.log start stop).location) :
    segment = journal.log start stop := by
  obtain ⟨name, hchild, hname⟩ := h.named
  obtain ⟨hjoin, -⟩ := Path.child?_eq_some_iff.1 hchild
  have hnamed := hlocation
  rw [hjoin, log, logDir] at hnamed
  cases hkind : segment.kind with
  | checkpoint =>
      rw [hkind] at hnamed
      exact absurd hnamed.symm (join_dirOf_ne journal _ name)
  | log =>
      rw [hkind] at hnamed
      rw [Path.join_inj hnamed, Segment.decodeName?_encodeName_eq] at hname
      split at hname <;> cases hname
      calc segment = ⟨segment.start, segment.stop, segment.location, segment.kind⟩ := rfl
        _ = journal.log segment.start segment.stop := by
          rw [hlocation, hkind]
          rfl

theorem stop_of_location {start stop : UInt64} (h : journal.Places segment)
    (hlocation : segment.location = (journal.log start stop).location) : segment.stop = stop :=
  congrArg Segment.stop (h.eq_log hlocation)

end Places

variable {start stop : UInt64}

theorem places_log (journal : Journal) (h : start ≤ stop) (hstop : stop ≤ unknownStop) :
    journal.Places (journal.log start stop) :=
  ⟨Segment.encodeName start stop, Path.child?_join _ _ (Segment.slash_notMem_encodeName _ _),
    Segment.decodeName?_encodeName h hstop⟩

theorem places_checkpoint (journal : Journal) (h : start ≤ stop) (hstop : stop ≤ unknownStop) :
    journal.Places (journal.checkpoint start stop) :=
  ⟨Segment.encodeName start stop, Path.child?_join _ _ (Segment.slash_notMem_encodeName _ _),
    Segment.decodeName?_encodeName h hstop⟩

end Journal

end SegmentedJournal
