import SegmentedJournal.Proofs.Codec
import SegmentedJournal.Proofs.Recovery
/-!
# What a reader takes off a file

Reading is parsing: as long as the octets that are left begin with the frame of an entry, the entry
is answered and its frame taken off; then every read gives the same answer and takes nothing.  The
entries of a reader are those it still answers (`SegmentReader.entries`), and one step is a read
together with the reader behind it (`SegmentReader.step`).

A step keeps what was taken equal to the frames of what was answered (`SegmentReader.Behind`,
`SegmentReader.Behind.read`), and so do any number of them (`SegmentReader.Behind.after`).  What
can still be read after some reads is what is left of the entries
(`SegmentReader.entries_after`).  Together they say all that the reads of a file's octets give
(`SegmentReader.Parses`, `SegmentReader.parses_entries`), and for octets that entries were
written to, which entries those are (`SegmentReader.entries_encodeAll`).
-/

namespace SegmentedJournal

open Medium (Keeps Foiled)

namespace SegmentReader

variable {reader next : SegmentReader} {entry : Entry} {contents : Bytes} {passed : List Entry}

/-! ### Reads, one after the other -/

/-- The entries that can still be read. -/
def entries (reader : SegmentReader) : List Entry :=
  match _ : reader.read with
  | .ok (some (entry, next)) => entry :: next.entries
  | .ok none => []
  | .error _ => []
termination_by reader.rest.length
decreasing_by exact length_rest_of_read (by assumption)

/-- A read's answer, and the reader as it is then: a read without an entry leaves it alone. -/
def step (reader : SegmentReader) : Except JournalError (Option Entry) × SegmentReader :=
  match reader.read with
  | .ok (some (entry, next)) => (.ok (some entry), next)
  | .ok none => (.ok none, reader)
  | .error error => (.error error, reader)

/-- The reader as it is after some reads. -/
def after (reader : SegmentReader) : Nat → SegmentReader
  | 0 => reader
  | i + 1 => reader.step.2.after i

/-- The answer to the read that comes after `i` others. -/
def answer (reader : SegmentReader) (i : Nat) : Except JournalError (Option Entry) :=
  (reader.after i).step.1

/-! ### One read -/

/-- A read takes the frame of the entry that it answers, and nothing else. -/
theorem read_eq_some_iff : reader.read = .ok (some (entry, next)) ↔
    entry.Fits ∧ ∃ rest, reader.rest = entry.encode ++ rest ∧ next = reader.behind entry rest := by
  constructor
  · intro h
    unfold read at h
    split at h
    · cases h
    · split at h
      · next hdecode =>
        cases h
        obtain ⟨hfits, rfl, rest, hrest⟩ := Frame.decode_eq_ok_iff.1 hdecode
        refine ⟨hfits, rest, hrest.symm, ?_⟩
        rw [behind, ← hrest, List.drop_left' (Entry.length_encode entry)]
      · cases h
  · rintro ⟨hfits, rest, hrest, rfl⟩
    exact read_encode_append hfits hrest

theorem step_of_entry (h : reader.read = .ok (some (entry, next))) :
    reader.step = (.ok (some entry), next) := by
  rw [step, h]

theorem entries_of_entry (h : reader.read = .ok (some (entry, next))) :
    reader.entries = entry :: next.entries := by
  rw [entries]
  split <;> simp_all

/-- A read without an entry finds none left: it is at the end of the file, or at octets that begin
with no frame, which it reports. -/
theorem step_of_entries_eq_nil (h : reader.entries = []) :
    reader.step.2 = reader ∧
      (reader.rest = [] ∧ reader.step.1 = .ok none ∨
        ∃ error, Frame.decode reader.rest = .error error ∧ reader.rest ≠ [] ∧
          reader.step.1 =
            .error (.invalidEntry reader.segment.location reader.position error.message)) := by
  rcases hread : reader.read with error | _ | ⟨entry, next⟩
  · rw [step, hread]
    refine ⟨rfl, .inr ?_⟩
    unfold read at hread
    split at hread
    · cases hread
    · next hne =>
      split at hread
      · cases hread
      · next error hdecode =>
        cases hread
        exact ⟨error, hdecode, fun hnil => hne (List.isEmpty_iff.2 hnil), rfl⟩
  · rw [step, hread]
    refine ⟨rfl, .inl ⟨?_, rfl⟩⟩
    unfold read at hread
    split at hread
    · next hempty => exact List.isEmpty_iff.1 hempty
    · split at hread <;> cases hread
  · rw [entries_of_entry hread] at h
    cases h

/-- A reader with entries left answers the first of them. -/
theorem exists_of_entries_eq_cons {others : List Entry} (h : reader.entries = entry :: others) :
    ∃ next, reader.read = .ok (some (entry, next)) ∧ next.entries = others := by
  rcases hread : reader.read with error | _ | ⟨first, next⟩
  · rw [entries] at h
    split at h <;> simp_all
  · rw [entries] at h
    split at h <;> simp_all
  · rw [entries_of_entry hread] at h
    cases h
    exact ⟨next, rfl, rfl⟩

/-- At octets that begin with no frame nothing is left. -/
theorem entries_of_refused (h : ∃ error, Frame.decode reader.rest = .error error) :
    reader.entries = [] := by
  rw [entries]
  rcases read_of_refused h with h | ⟨error, h, -⟩ <;> split <;> simp_all

/-! ### Any number of reads -/

/-- After some reads, what is left of the entries can still be read. -/
theorem entries_after (reader : SegmentReader) (i : Nat) :
    (reader.after i).entries = reader.entries.drop i := by
  induction i generalizing reader with
  | zero => rfl
  | succ i ih =>
    rw [after, ih]
    cases hentries : reader.entries with
    | nil => rw [(step_of_entries_eq_nil hentries).1, hentries, List.drop_nil, List.drop_nil]
    | cons entry others =>
      obtain ⟨next, hread, rfl⟩ := exists_of_entries_eq_cons hentries
      rw [step_of_entry hread, List.drop_succ_cons]

theorem after_of_entries_eq_nil (h : reader.entries = []) (i : Nat) : reader.after i = reader := by
  induction i with
  | zero => rfl
  | succ i ih => rw [after, (step_of_entries_eq_nil h).1, ih]

theorem after_add (reader : SegmentReader) (i j : Nat) :
    reader.after (i + j) = (reader.after i).after j := by
  induction i generalizing reader with
  | zero => rw [Nat.zero_add, after]
  | succ i ih => rw [Nat.succ_add, after, after, ih]

/-- Past the last entry the reader stays where it is. -/
theorem after_of_length_le {i : Nat} (h : reader.entries.length ≤ i) :
    reader.after i = reader.after reader.entries.length := by
  obtain ⟨j, rfl⟩ := Nat.exists_eq_add_of_le h
  rw [after_add, after_of_entries_eq_nil (by rw [entries_after, List.drop_length])]

/-- The reader is behind the frames of some entries at the front of the octets. -/
structure Behind (contents : Bytes) (passed : List Entry) (reader : SegmentReader) : Prop where
  /-- The frames were taken, and what is left follows them. -/
  contents_eq : contents = Entry.encodeAll passed ++ reader.rest
  /-- They are counted. -/
  position_eq : reader.position = (Entry.encodeAll passed).length
  /-- The last of them is remembered. -/
  last?_eq : reader.last? = passed.getLast?.map Entry.sequence

/-- A segment that was just opened is behind nothing. -/
theorem Behind.start (segment : Segment) (contents : Bytes) :
    Behind contents [] { segment, rest := contents } :=
  ⟨rfl, rfl, rfl⟩

/-- **The step**: a read that answers an entry is behind that one too. -/
theorem Behind.read (h : Behind contents passed reader)
    (hread : reader.read = .ok (some (entry, next))) :
    Behind contents (passed ++ [entry]) next := by
  obtain ⟨-, rest, hrest, rfl⟩ := read_eq_some_iff.1 hread
  refine ⟨?_, ?_, ?_⟩
  · rw [h.contents_eq, hrest, Entry.encodeAll_append, Entry.encodeAll_cons, Entry.encodeAll_nil,
      List.append_nil, List.append_assoc, behind]
  · rw [behind, h.position_eq, Entry.encodeAll_append, List.length_append, Entry.encodeAll_cons,
      Entry.encodeAll_nil, List.append_nil, Entry.length_encode]
  · rw [behind, List.getLast?_concat, Option.map_some]

/-- **The run**: after some reads the reader is behind as many of its entries, or all of them. -/
theorem Behind.after (h : Behind contents passed reader) (i : Nat) :
    Behind contents (passed ++ reader.entries.take i) (reader.after i) := by
  induction i generalizing reader passed with
  | zero => rwa [List.take_zero, List.append_nil]
  | succ i ih =>
    rw [SegmentReader.after]
    cases hentries : reader.entries with
    | nil =>
      have hstays := ih h
      rw [hentries, List.take_nil] at hstays
      rwa [(step_of_entries_eq_nil hentries).1, List.take_nil]
    | cons entry others =>
      obtain ⟨next, hread, rfl⟩ := exists_of_entries_eq_cons hentries
      rw [step_of_entry hread, List.take_succ_cons, List.append_cons]
      exact ih (h.read hread)

/-- Each entry fits a frame. -/
theorem fits_of_mem_entries (h : entry ∈ reader.entries) : entry.Fits := by
  obtain ⟨i, hi, rfl⟩ := List.getElem_of_mem h
  have hdrop := entries_after reader i
  rw [List.drop_eq_getElem_cons hi] at hdrop
  obtain ⟨next, hread, -⟩ := exists_of_entries_eq_cons hdrop
  exact (read_eq_some_iff.1 hread).1

theorem answer_of_lt {i : Nat} (h : i < reader.entries.length) :
    reader.answer i = .ok (some reader.entries[i]) := by
  have hdrop := entries_after reader i
  rw [List.drop_eq_getElem_cons h] at hdrop
  obtain ⟨next, hread, -⟩ := exists_of_entries_eq_cons hdrop
  rw [answer, step_of_entry hread]

/-! ### All the reads of a file -/

/-- The reads of `contents` are the greedy parse of them, and it gives `entries`. -/
structure Parses (reader : SegmentReader) (contents : Bytes) (entries : List Entry) : Prop where
  /-- Each of them fits a frame. -/
  fits : ∀ entry ∈ entries, entry.Fits
  /-- The first reads answer the entries in order. -/
  answer_of_lt : ∀ i (h : i < entries.length), reader.answer i = .ok (some entries[i])
  /-- The octets before the position are the frames of what was answered. -/
  taken : ∀ i, contents.take (reader.after i).position = Entry.encodeAll (entries.take i)
  /-- The position counts them. -/
  position_eq : ∀ i, (reader.after i).position = (Entry.encodeAll (entries.take i)).length
  /-- The number of the last one is remembered. -/
  last?_eq : ∀ i, (reader.after i).last? = (entries.take i).getLast?.map Entry.sequence
  /-- Every later read gives one answer and leaves the reader alone. -/
  stays : ∀ i, entries.length ≤ i →
    reader.after i = reader.after entries.length ∧ reader.answer i = reader.answer entries.length
  /-- That is where what is left begins with no frame. -/
  greedy : ∀ entry : Entry, entry.Fits →
    ¬ entry.encode <+: contents.drop (reader.after entries.length).position
  /-- The answer is that nothing is left, or else why what is left is no entry, and where. -/
  ends : reader.answer entries.length = .ok none ∨
    ∃ error, Frame.decode (contents.drop (reader.after entries.length).position) = .error error ∧
      reader.answer entries.length = .error (.invalidEntry reader.segment.location
        (reader.after entries.length).position error.message)
  /-- A read answers that nothing is left just where nothing is. -/
  end_iff : ∀ i, reader.answer i = .ok none ↔ (reader.after i).position = contents.length

/-- What is left of the octets follows those that were counted. -/
theorem Behind.drop_position (h : Behind contents passed reader) :
    contents.drop reader.position = reader.rest := by
  rw [h.contents_eq, h.position_eq, List.drop_left]

theorem Behind.take_position (h : Behind contents passed reader) :
    contents.take reader.position = Entry.encodeAll passed := by
  rw [h.contents_eq, h.position_eq, List.take_left]

/-- Nothing is left just where everything was counted. -/
theorem Behind.rest_eq_nil_iff (h : Behind contents passed reader) :
    reader.rest = [] ↔ reader.position = contents.length := by
  rw [h.contents_eq, h.position_eq, List.length_append, ← List.length_eq_zero_iff]
  omega

/-- A reader answers that nothing is left just where nothing is. -/
theorem step_eq_none_iff (reader : SegmentReader) :
    reader.step.1 = .ok none ↔ reader.rest = [] := by
  cases hentries : reader.entries with
  | nil =>
    obtain ⟨-, ⟨hrest, hstep⟩ | ⟨error, -, hrest, hstep⟩⟩ := step_of_entries_eq_nil hentries
    · exact iff_of_true hstep hrest
    · exact iff_of_false (by rw [hstep]; exact nofun) hrest
  | cons entry others =>
    obtain ⟨next, hread, -⟩ := exists_of_entries_eq_cons hentries
    obtain ⟨-, rest, hrest, -⟩ := read_eq_some_iff.1 hread
    refine iff_of_false (by rw [step_of_entry hread]; exact nofun) ?_
    rw [hrest]
    exact fun hnil => entry.encode_ne_nil (List.append_eq_nil_iff.1 hnil).1

theorem segment_step (reader : SegmentReader) : reader.step.2.segment = reader.segment := by
  cases hentries : reader.entries with
  | nil => rw [(step_of_entries_eq_nil hentries).1]
  | cons entry others =>
    obtain ⟨next, hread, -⟩ := exists_of_entries_eq_cons hentries
    obtain ⟨-, rest, -, rfl⟩ := read_eq_some_iff.1 hread
    rw [step_of_entry hread, behind]

@[simp] theorem segment_after (reader : SegmentReader) (i : Nat) :
    (reader.after i).segment = reader.segment := by
  induction i generalizing reader with
  | zero => rfl
  | succ i ih => rw [after, ih, segment_step]

/-- A reader at the front of some octets parses them. -/
theorem parses_entries (h : Behind contents [] reader) : reader.Parses contents reader.entries := by
  have hbehind : ∀ i, Behind contents (reader.entries.take i) (reader.after i) := fun i => h.after i
  have hnone : (reader.after reader.entries.length).entries = [] := by
    rw [entries_after, List.drop_length]
  have hdrop := (hbehind reader.entries.length).drop_position
  obtain ⟨-, hends⟩ := step_of_entries_eq_nil hnone
  refine ⟨fun _ => fits_of_mem_entries, fun i hi => answer_of_lt hi,
    fun i => (hbehind i).take_position, fun i => (hbehind i).position_eq,
    fun i => (hbehind i).last?_eq, fun i hi => ?_, fun entry hfits hpre => ?_, ?_, fun i => ?_⟩
  · have hafter := after_of_length_le hi
    exact ⟨hafter, by rw [answer, hafter, answer]⟩
  · rw [hdrop] at hpre
    obtain ⟨rest, hrest⟩ := hpre
    rw [entries_of_entry (read_encode_append hfits hrest.symm)] at hnone
    cases hnone
  · rw [hdrop]
    rcases hends with ⟨-, hstep⟩ | ⟨error, hdecode, -, hstep⟩
    · exact .inl hstep
    · exact .inr ⟨error, hdecode, by rw [answer, hstep, segment_after]⟩
  · rw [answer, step_eq_none_iff, (hbehind i).rest_eq_nil_iff]

/-! ### The entries of known octets -/

/-- Of frames with a torn one behind them, the entries are those that were written. -/
theorem entries_encodeAll {written : List Entry} {tail : Bytes}
    (hfits : ∀ entry ∈ written, entry.Fits) (htail : Frame.Torn tail)
    (hrest : reader.rest = Entry.encodeAll written ++ tail) : reader.entries = written := by
  induction written generalizing reader with
  | nil => exact entries_of_refused (by rw [hrest]; exact Frame.decode_of_torn htail)
  | cons entry written ih =>
    rw [Entry.encodeAll_cons, List.append_assoc] at hrest
    rw [entries_of_entry (read_encode_append (hfits _ List.mem_cons_self) hrest),
      ih (fun e he => hfits e (List.mem_cons_of_mem _ he)) rfl]

/-- What is found is the greatest number of the entries. -/
theorem greatestFrom_eq_max? (best : Option UInt64) (reader : SegmentReader) :
    reader.greatestFrom best = (best.toList ++ reader.entries.map Entry.sequence).max? := by
  generalize hentries : reader.entries = entries
  induction entries generalizing reader best with
  | nil =>
    obtain ⟨-, ⟨hrest, -⟩ | ⟨error, hdecode, -⟩⟩ := step_of_entries_eq_nil hentries
    · rw [greatestFrom_of_refused (by rw [hrest]; exact Frame.decode_of_torn Frame.torn_nil)]
      cases best <;> rfl
    · rw [greatestFrom_of_refused ⟨error, hdecode⟩]
      cases best <;> rfl
  | cons entry others ih =>
    obtain ⟨next, hread, hothers⟩ := exists_of_entries_eq_cons hentries
    rw [greatestFrom_of_entry hread, ih _ _ hothers]
    cases best with
    | none => rfl
    | some known =>
      simp only [greater, Option.elim_some, Option.toList_some, List.singleton_append,
        List.map_cons, List.max?_cons', List.foldl_cons]

theorem greatest?_eq_max? (reader : SegmentReader) :
    reader.greatest? = (reader.entries.map Entry.sequence).max? :=
  greatestFrom_eq_max? none reader

/-- The greater of two words is one of them, and no less than either. -/
instance : Std.LawfulOrderMax UInt64 where
  max_eq_or a b := by
    change (if a ≤ b then b else a) = a ∨ _
    split
    · next hle => exact .inr (if_pos hle)
    · exact .inl rfl
  max_le_iff a b c := by
    change (if a ≤ b then b else a) ≤ c ↔ _
    split
    · next hle => exact ⟨fun h => ⟨UInt64.le_trans hle h, h⟩, fun h => h.2⟩
    · next hlt =>
      have hle := UInt64.le_of_lt (UInt64.not_le.1 hlt)
      exact ⟨fun h => ⟨h, UInt64.le_trans hle h⟩, fun h => h.1⟩

/-- The greatest number is that of an entry, and no other entry's is above it. -/
theorem greatest?_eq_some_iff {best : UInt64} : reader.greatest? = some best ↔
    (∃ entry ∈ reader.entries, entry.sequence = best) ∧
      ∀ entry ∈ reader.entries, entry.sequence ≤ best := by
  rw [greatest?_eq_max?, List.max?_eq_some_iff, List.forall_mem_map, List.mem_map]

/-! ### Segments -/

/-- **The greedy parse**: a segment that is opened answers, read by read, the entries whose frames
its file begins with, and then stays where the next frame should be.  It is at the end there just
if nothing is left; otherwise every further read reports the same octets.  Of the frames of any
entries with a torn one behind them it gives those entries, ends clean just if the torn one is
empty, and a scan finds the greatest of their numbers. -/
theorem load_parses {segment : Segment} {contents : Bytes} {medium : Medium Memory}
    (hget : medium.storage.files.get? segment.location = some contents) :
    (load segment).Ensures medium
      (fun reader behind => Keeps medium behind ∧ reader.segment = segment ∧
        ∃ entries, reader.Parses contents entries ∧
          ∀ written tail, (∀ entry ∈ written, entry.Fits) → Frame.Torn tail →
            contents = Entry.encodeAll written ++ tail →
            entries = written ∧ (reader.answer written.length = .ok none ↔ tail = []))
      (fun _ behind => Foiled medium behind) ∧
    (Journal.scan segment).Ensures medium
      (fun greatest behind => Keeps medium behind ∧
        ∃ entries, Parses { segment, rest := contents } contents entries ∧
          greatest = (entries.map Entry.sequence).max? ∧
          ∀ written tail, (∀ entry ∈ written, entry.Fits) → Frame.Torn tail →
            contents = Entry.encodeAll written ++ tail →
            greatest = (written.map Entry.sequence).max?)
      (fun _ behind => Foiled medium behind) := by
  have hparses := parses_entries (Behind.start segment contents)
  refine ⟨?_, ?_⟩
  · refine (ensures_load hget).mono ?_ (fun _ _ h => h.2)
    rintro _ behind ⟨rfl, hkeeps⟩
    refine ⟨hkeeps, rfl, _, hparses, fun written tail hfits htail hcontents => ?_⟩
    obtain hentries : entries { segment, rest := contents } = written :=
      entries_encodeAll hfits htail hcontents
    refine ⟨hentries, ?_⟩
    rw [hparses.end_iff, hparses.position_eq, hentries, List.take_length, hcontents,
      List.length_append, ← List.length_eq_zero_iff]
    omega
  · rw [Journal.scan, Action.ensures_bind]
    refine (ensures_load hget).mono ?_ (fun _ _ h => h.2)
    rintro _ behind ⟨rfl, hkeeps⟩
    refine ⟨hkeeps, _, hparses, greatest?_eq_max? _, fun written tail hfits htail hcontents => ?_⟩
    rw [greatest?_eq_max?, entries_encodeAll hfits htail hcontents]

/-- For example, entries 7 and 3 and the first half of another: the reader answers the two, and from
then on reports the half, which starts at the thirty-fourth octet. -/
theorem load_parses_half :
    let written : List Entry := [⟨7, [1, 2]⟩, ⟨3, []⟩]
    let third : Entry := ⟨8, [9]⟩
    let segment : Segment := ⟨7, unknownStop, "open", .log⟩
    let contents := Entry.encodeAll written ++ third.encode.take 8
    let medium : Medium Memory := ⟨⟨.onFlush, PathMap.empty.insert "open" contents, []⟩, [], {}, []⟩
    ((load segment).Ensures medium
      (fun reader _ => reader.answer 0 = .ok (some ⟨7, [1, 2]⟩) ∧
        reader.answer 1 = .ok (some ⟨3, []⟩) ∧
        ∀ i, 2 ≤ i → reader.answer i ≠ .ok none ∧ (reader.after i).position = 34)
      (fun _ _ => False)) ∧
    (Journal.scan segment).Ensures medium (fun greatest _ => greatest = some 7)
      (fun _ _ => False) := by
  intro written third segment contents medium
  have hget : medium.storage.files.get? segment.location = some contents := by
    simp [medium, segment]
  have hfits : ∀ entry ∈ written, entry.Fits := by decide
  have htorn : Frame.Torn (third.encode.take 8) :=
    ⟨third, by decide, List.take_prefix _ _, by simp [Entry.encodedLength_eq, third]⟩
  have hquiet : ∀ behind, ¬ Foiled medium behind := fun behind h => Nat.not_lt_zero _ h.armed_lt
  obtain ⟨hload, hscan⟩ := load_parses hget
  refine ⟨hload.mono ?_ (fun _ behind => hquiet behind),
    hscan.mono ?_ (fun _ behind => hquiet behind)⟩
  · rintro reader behind ⟨-, -, entries, hparses, hwritten⟩
    obtain ⟨rfl, hclean⟩ := hwritten written _ hfits htorn rfl
    refine ⟨hparses.answer_of_lt 0 (by decide), hparses.answer_of_lt 1 (by decide),
      fun i hi => ⟨?_, ?_⟩⟩
    · rw [(hparses.stays i hi).2, Ne, hclean]
      exact fun hnil => by cases congrArg List.length hnil
    · rw [(hparses.stays i hi).1, hparses.position_eq]
      rfl
  · rintro greatest behind ⟨-, entries, -, -, hwritten⟩
    rw [hwritten written _ hfits htorn rfl]
    rfl

end SegmentReader

end SegmentedJournal
