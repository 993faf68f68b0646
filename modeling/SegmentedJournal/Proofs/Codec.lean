import SegmentedJournal.Proofs.Frames
/-!
# Frames, read and written

Reading a frame and writing one are inverse to each other.  What is asked of octets before a frame
is taken off their front is said by their first four alone (`Frame.Whole`), and decoding then
depends on nothing but the checksum (`Frame.decode_of_whole`).  An entry that was decoded writes
the octets it was read from (`Frame.encode_of_decode`), as every part of a frame does: its length,
its checksum and its body (`Frame.ofNat_declaredLength`, `Frame.ofNat_storedChecksum`,
`Frame.body_entryOfBody`).

So octets decode to an entry if and only if its payload fits and they begin with its frame
(`Frame.decode_exact`).
-/

namespace SegmentedJournal

namespace Frame

variable {data cut : Bytes} {entry other : Entry} {used : Nat}

/-! ### What decoding asks for -/

/-- The octets declare a length that a frame may have, and there are as many. -/
structure Whole (data : Bytes) : Prop where
  /-- There is room for the fixed parts. -/
  lower : 12 ≤ declaredLength data
  /-- The length is within the limit. -/
  upper : declaredLength data ≤ maxLength
  /-- The octets do not end before the frame does. -/
  length_le : 4 + declaredLength data ≤ data.length

theorem decode_of_whole (h : Whole data) :
    decode data = decodeSized (4 + declaredLength data) data := by
  obtain ⟨hlower, hupper, hlength⟩ := h
  have hfour : Bytes.reaches 4 data = true := (Bytes.reaches_iff _ _).2 (by omega)
  have hall : Bytes.reaches (4 + declaredLength data) data = true :=
    (Bytes.reaches_iff _ _).2 hlength
  rw [decode, if_neg (not_not_intro hfour), if_neg (by simp only [Entry.sequenceSize]; omega),
    if_neg (not_not_intro hall)]

theorem whole_of_decode (h : decode data = .ok (entry, used)) : Whole data := by
  unfold decode at h
  split at h
  · cases h
  · split at h
    · cases h
    · next hlength =>
      split at h
      · cases h
      · next hreaches =>
        rw [Bytes.reaches_iff, Decidable.not_not] at hreaches
        simp only [Entry.sequenceSize, not_or] at hlength
        exact ⟨by omega, by omega, hreaches⟩

/-- Octets that begin like an entry's frame, and are no fewer, hold a frame of its length. -/
theorem whole_of_take (hfits : entry.Fits) (htake : data.take 4 = entry.encode.take 4)
    (hlength : entry.encodedLength ≤ data.length) :
    Whole data ∧ 4 + declaredLength data = entry.encodedLength := by
  have hmax : entry.payload.length ≤ 64 * 1024 * 1024 - 12 := hfits
  have hdeclared := declaredLength_of_take hfits htake
  rw [Entry.encodedLength_eq] at hlength ⊢
  exact ⟨⟨by omega, by simp only [maxLength]; omega, by omega⟩, by omega⟩

/-! ### The parts of a frame -/

theorem ofNat_declaredLength (h : 4 ≤ data.length) :
    Bytes.ofNat 4 (declaredLength data) = data.take 4 := by
  have hlength : (data.take 4).length = 4 := by
    rw [List.length_take]
    omega
  have hwrite := Bytes.ofNat_toNat (data.take 4)
  rwa [hlength] at hwrite

/-- The checksum's field holds the octets that it is written with. -/
theorem ofNat_storedChecksum (h : 8 ≤ data.length) :
    Bytes.ofNat 4 (storedChecksum data).toNat = (data.drop 4).take 4 := by
  have hlength : ((data.drop 4).take 4).length = 4 := by
    rw [List.length_take, List.length_drop]
    omega
  have hlt := Bytes.toNat_lt ((data.drop 4).take 4)
  have hwrite := Bytes.ofNat_toNat ((data.drop 4).take 4)
  rw [hlength] at hlt hwrite
  rwa [storedChecksum, UInt32.toNat_ofNat_of_lt' hlt]

/-- An entry read from a body has that body. -/
theorem body_entryOfBody {body : Bytes} (h : 8 ≤ body.length) : (entryOfBody body).body = body := by
  have hlength : (body.take Entry.sequenceSize).length = Entry.sequenceSize := by
    rw [List.length_take, Entry.sequenceSize]
    omega
  have hlt := Bytes.toNat_lt (body.take Entry.sequenceSize)
  have hwrite := Bytes.ofNat_toNat (body.take Entry.sequenceSize)
  rw [hlength] at hlt hwrite
  rw [entryOfBody, Entry.body, UInt64.toNat_ofNat_of_lt' hlt, hwrite, List.take_append_drop]

/-! ### Both directions -/

/-- An entry that was decoded writes the octets it was read from. -/
theorem encode_of_decode (h : decode data = .ok (entry, used)) :
    entry.encode = data.take used ∧ entry.Fits ∧ used = entry.encodedLength := by
  have hwhole := whole_of_decode h
  rw [decode_of_whole hwhole, decodeSized] at h
  obtain ⟨hlower, hupper, hlength⟩ := hwhole
  split at h
  · next hstored =>
    cases h
    generalize htotal : 4 + declaredLength data = total at hstored hlength
    have hsize : (body total data).length = total - 8 := by
      simp only [body, Entry.headerSize, List.length_take, List.length_drop]
      omega
    have hbody : (entryOfBody (body total data)).body = body total data :=
      body_entryOfBody (by omega)
    have hpayload : (entryOfBody (body total data)).payload.length = total - 16 := by
      rw [entryOfBody, List.length_drop, hsize, Entry.sequenceSize]
      omega
    refine ⟨?_, ?_, ?_⟩
    · -- The three parts are the octets before the fourth, the eighth and the end.
      have hdeclared : 4 + Entry.sequenceSize + (total - 16) = declaredLength data := by
        rw [Entry.sequenceSize]
        omega
      have hsplit : data.take total =
          data.take 4 ++ ((data.drop 4).take 4 ++ (data.drop 8).take (total - 8)) := by
        rw [← List.append_assoc, ← List.take_add, ← List.take_add]
        congr 1
        omega
      rw [Entry.encode, hbody, ← hstored, hpayload, hdeclared,
        ofNat_declaredLength (by omega), ofNat_storedChecksum (by omega), hsplit]
      rfl
    · rw [Entry.Fits, hpayload, maxPayload]
      omega
    · rw [Entry.encodedLength_eq, hpayload]
      omega
  · cases h

theorem decode_eq_ok_iff : decode data = .ok (entry, used) ↔
    entry.Fits ∧ used = entry.encodedLength ∧ entry.encode <+: data := by
  constructor
  · intro h
    obtain ⟨hencode, hfits, hused⟩ := encode_of_decode h
    exact ⟨hfits, hused, hencode ▸ List.take_prefix used data⟩
  · rintro ⟨hfits, rfl, rest, rfl⟩
    exact decode_encode_append hfits rest

/-- Of two frames that fit, neither begins with the other. -/
theorem eq_of_begins (hother : other.Fits) (h : other.encode <+: entry.encode)
    (hfits : entry.Fits) : other = entry := by
  have hdecode : decode entry.encode = .ok (other, other.encodedLength) :=
    decode_eq_ok_iff.2 ⟨hother, rfl, h⟩
  have hself : decode entry.encode = .ok (entry, entry.encodedLength) :=
    decode_eq_ok_iff.2 ⟨hfits, rfl, List.prefix_rfl⟩
  rw [hself] at hdecode
  cases hdecode
  rfl

/-- **Exactness**: octets decode to an entry just if its payload fits a frame and they begin with
its frame.  So decoding undoes encoding whatever follows, an entry that was decoded writes the
octets that were taken, no frame begins with another, and a frame that was cut off is refused as
truncated wherever it was cut. -/
theorem decode_exact (data : Bytes) (entry : Entry) (used : Nat) :
    (decode data = .ok (entry, used) ↔
      entry.Fits ∧ used = entry.encodedLength ∧ entry.encode <+: data) ∧
    (entry.Fits → ∀ rest, decode (entry.encode ++ rest) = .ok (entry, entry.encodedLength)) ∧
    (decode data = .ok (entry, used) → entry.encode = data.take used) ∧
    (entry.Fits → ∀ other : Entry, other.Fits → other.encode <+: entry.encode → other = entry) ∧
    (entry.Fits → ∀ cut, cut <+: entry.encode → cut ≠ entry.encode →
      ∃ needed, cut.length < needed ∧ needed ≤ entry.encodedLength ∧
        decode cut = .error (.truncated needed cut.length)) := by
  refine ⟨decode_eq_ok_iff, fun hfits => decode_encode_append hfits,
    fun h => (encode_of_decode h).1, fun hfits _ hother h => eq_of_begins hother h hfits,
    fun hfits cut hpre hne => ?_⟩
  have hlt : cut.length < entry.encodedLength := by
    rw [← Entry.length_encode]
    exact Nat.lt_of_le_of_ne hpre.length_le fun h => hne (hpre.eq_of_length h)
  have hpos := entry.encodedLength_eq
  refine ⟨_, ?_, ?_, decode_of_cut hfits hpre hlt⟩ <;> split <;> omega

/-- For example, of two frames, one after the other, the first is read, and the second is left. -/
theorem decode_exact_second :
    let first : Entry := ⟨7, [0x61]⟩
    let second : Entry := ⟨8, []⟩
    first.Fits ∧ decode (first.encode ++ second.encode) = .ok (first, 17) ∧
      first.encode = (first.encode ++ second.encode).take 17 ∧
      ¬ second.encode <+: first.encode ∧
      ∃ needed, decode (first.encode.take 16) = .error (.truncated needed 16) := by
  intro first second
  have hfits : first.Fits := by decide
  obtain ⟨hiff, -, hencode, hpre, hcut⟩ :=
    decode_exact (first.encode ++ second.encode) first 17
  have hdecode := hiff.2 ⟨hfits, rfl, List.prefix_append _ _⟩
  obtain ⟨needed, -, -, htruncated⟩ := hcut hfits (first.encode.take 16) (List.take_prefix _ _)
    fun heq => absurd (congrArg List.length heq) (by simp [Entry.encodedLength_eq, first])
  rw [List.length_take, Entry.length_encode] at htruncated
  exact ⟨hfits, hdecode, hencode hdecode,
    fun h => absurd (hpre hfits second (by decide) h) (by decide), needed, htruncated⟩

end Frame

end SegmentedJournal
