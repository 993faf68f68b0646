import SegmentedJournal.Segment.Reader
/-!
# Frames of entries

What is read off octets that entries were written to.  An entry whose payload fits (`Entry.Fits`)
is read back from the front of its frame, whatever follows (`Frame.decode_encode_append`); a frame
that was cut off is refused as truncated (`Frame.decode_of_cut`).  So a reader of frames that end
in a torn one finds the greatest number of the entries (`SegmentReader.greatestFrom_encodeAll`), and
a search goes past each entry below the number it looks for (`SegmentReader.seek_of_below`).
-/

namespace SegmentedJournal

/-- The entry's payload fits a frame. -/
def Entry.Fits (entry : Entry) : Prop :=
  entry.payload.length ≤ Frame.maxPayload

instance (entry : Entry) : Decidable entry.Fits :=
  inferInstanceAs (Decidable (entry.payload.length ≤ Frame.maxPayload))

/-- The octets are the start of an entry's frame and not all of it. -/
def Frame.Torn (tail : Bytes) : Prop :=
  ∃ entry : Entry, entry.Fits ∧ tail <+: entry.encode ∧ tail.length < entry.encodedLength

namespace Entry

@[simp] theorem encodeAll_nil : encodeAll [] = [] := rfl

@[simp] theorem encodeAll_cons (entry : Entry) (entries : List Entry) :
    encodeAll (entry :: entries) = entry.encode ++ encodeAll entries := List.flatMap_cons

@[simp] theorem encodeAll_append (entries entries' : List Entry) :
    encodeAll (entries ++ entries') = encodeAll entries ++ encodeAll entries' :=
  List.flatMap_append

theorem encodedLength_eq (entry : Entry) : entry.encodedLength = 16 + entry.payload.length := rfl

theorem encode_ne_nil (entry : Entry) : entry.encode ≠ [] := by
  rw [← List.length_pos_iff, length_encode, encodedLength_eq]
  omega

end Entry

namespace Frame

variable {entry : Entry} {data : Bytes}

theorem torn_nil : Torn [] :=
  ⟨⟨0, []⟩, Nat.zero_le _, List.nil_prefix, by decide⟩

/-- Half a frame is torn. -/
theorem torn_half (h : entry.Fits) : Torn (entry.encode.take (entry.encode.length / 2)) := by
  refine ⟨entry, h, List.take_prefix _ _, ?_⟩
  simp only [List.length_take, Entry.length_encode, Entry.encodedLength_eq]
  omega

/-! ### The parts of a frame -/

theorem declaredLength_of_take (h : entry.Fits)
    (hdata : data.take 4 = entry.encode.take 4) :
    declaredLength data = 12 + entry.payload.length := by
  have hmax : entry.payload.length ≤ 64 * 1024 * 1024 - 12 := h
  have htake : entry.encode.take 4 =
      Bytes.ofNat 4 (4 + Entry.sequenceSize + entry.payload.length) := by
    rw [Entry.encode, List.take_left' (Bytes.length_ofNat _ _)]
  rw [declaredLength, hdata, htake, Bytes.toNat_ofNat, Nat.mod_eq_of_lt]
  · simp only [Entry.sequenceSize]
  · have hpow : Nat.pow 256 4 = 4294967296 := rfl
    simp only [Entry.sequenceSize, hpow]
    omega

theorem storedChecksum_encode_append (entry : Entry) (rest : Bytes) :
    storedChecksum (entry.encode ++ rest) = Checksum.ofBytes entry.body := by
  have hdrop : (entry.encode ++ rest).drop 4 =
      Bytes.ofNat 4 (Checksum.ofBytes entry.body).toNat ++ (entry.body ++ rest) := by
    rw [Entry.encode, List.append_assoc, List.drop_left' (Bytes.length_ofNat _ _),
      List.append_assoc]
  have hlt := (Checksum.ofBytes entry.body).toNat_lt
  have hpow : Nat.pow 256 4 = 4294967296 := rfl
  rw [storedChecksum, hdrop, List.take_left' (Bytes.length_ofNat _ _), Bytes.toNat_ofNat,
    Nat.mod_eq_of_lt (by omega), UInt32.ofNat_toNat]

theorem body_encode_append (entry : Entry) (rest : Bytes) :
    body entry.encodedLength (entry.encode ++ rest) = entry.body := by
  have hsplit : entry.encode ++ rest =
      (Bytes.ofNat 4 (4 + Entry.sequenceSize + entry.payload.length) ++
        Bytes.ofNat 4 (Checksum.ofBytes entry.body).toNat) ++ (entry.body ++ rest) := by
    simp only [Entry.encode, List.append_assoc]
  have hlen : entry.encodedLength - Entry.headerSize = entry.body.length := by
    simp only [Entry.encodedLength, Entry.length_body]
    omega
  rw [body, hsplit, List.drop_left' (by simp [Entry.headerSize]), hlen, List.take_left' rfl]

theorem entryOfBody_body (entry : Entry) : entryOfBody entry.body = entry := by
  have hlt := entry.sequence.toNat_lt
  have hpow : Nat.pow 256 8 = 18446744073709551616 := rfl
  have hsize : (Bytes.ofNat Entry.sequenceSize entry.sequence.toNat).length =
      Entry.sequenceSize := Bytes.length_ofNat _ _
  rw [entryOfBody, Entry.body, List.take_left' hsize, List.drop_left' hsize, Bytes.toNat_ofNat,
    Entry.sequenceSize, Nat.mod_eq_of_lt (by omega), UInt64.ofNat_toNat]

/-! ### Reading -/

/-- An entry is read back from the front of its frame, whatever follows. -/
theorem decode_encode_append (h : entry.Fits) (rest : Bytes) :
    decode (entry.encode ++ rest) = .ok (entry, entry.encodedLength) := by
  have hmax : entry.payload.length ≤ 64 * 1024 * 1024 - 12 := h
  have hencoded := entry.encodedLength_eq
  have hlen : (entry.encode ++ rest).length = entry.encodedLength + rest.length := by simp
  have hdeclared : declaredLength (entry.encode ++ rest) = 12 + entry.payload.length :=
    declaredLength_of_take h
      (List.take_append_of_le_length (by simp only [Entry.length_encode]; omega))
  have htotal : 4 + (12 + entry.payload.length) = entry.encodedLength := by omega
  unfold decode
  rw [hdeclared, if_neg (by simp only [Bytes.reaches_iff]; omega),
    if_neg (by simp only [Entry.sequenceSize, maxLength]; omega),
    if_neg (by simp only [Bytes.reaches_iff]; omega), htotal, decodeSized,
    body_encode_append, storedChecksum_encode_append, entryOfBody_body]
  exact if_pos rfl

/-- A frame that was cut off is refused as truncated: where its length was cut, too, four octets
are asked for, and else the whole frame is. -/
theorem decode_of_cut (h : entry.Fits) (hpre : data <+: entry.encode)
    (hlt : data.length < entry.encodedLength) :
    decode data =
      .error (.truncated (if data.length < 4 then 4 else entry.encodedLength) data.length) := by
  have hmax : entry.payload.length ≤ 64 * 1024 * 1024 - 12 := h
  have hencoded := entry.encodedLength_eq
  unfold decode
  by_cases hfour : Bytes.reaches 4 data = true
  · have hle := (Bytes.reaches_iff 4 data).1 hfour
    have htake : data.take 4 = entry.encode.take 4 := by
      obtain ⟨rest, hrest⟩ := hpre
      rw [← hrest, List.take_append_of_le_length hle]
    have hdeclared := declaredLength_of_take h htake
    have htotal : 4 + (12 + entry.payload.length) = entry.encodedLength := by omega
    rw [hdeclared, if_neg (not_not_intro hfour),
      if_neg (by simp only [Entry.sequenceSize, maxLength]; omega),
      if_pos (by simp only [Bytes.reaches_iff]; omega), htotal, if_neg (Nat.not_lt.2 hle)]
  · rw [Bytes.reaches_iff] at hfour
    rw [if_pos (by rwa [Bytes.reaches_iff]), if_pos (Nat.not_le.1 hfour)]

/-- A torn frame is no entry. -/
theorem decode_of_torn (h : Torn data) : ∃ error, decode data = .error error := by
  obtain ⟨entry, hfits, hpre, hlt⟩ := h
  exact ⟨_, decode_of_cut hfits hpre hlt⟩

end Frame

/-! ### Readers -/

namespace SegmentReader

variable {reader next : SegmentReader} {entry : Entry} {rest : Bytes}

/-- The reader behind an entry that it has just read. -/
def behind (reader : SegmentReader) (entry : Entry) (rest : Bytes) : SegmentReader :=
  { reader with
    rest
    position := reader.position + entry.encodedLength
    last? := some entry.sequence }

theorem read_encode_append (h : entry.Fits) (hrest : reader.rest = entry.encode ++ rest) :
    reader.read = .ok (some (entry, reader.behind entry rest)) := by
  have hne : (entry.encode ++ rest).isEmpty = false := by
    simp [entry.encode_ne_nil]
  rw [read, hrest, hne, Frame.decode_encode_append h]
  simp [behind, List.drop_left' (Entry.length_encode entry)]

/-- At octets that are no frame there is nothing to read; a decoding error says so unless there are
none. -/
theorem read_of_refused (h : ∃ error, Frame.decode reader.rest = .error error) :
    reader.read = .ok none ∨ ∃ error, reader.read = .error error ∧ error.isDecodeError = true := by
  unfold read
  cases reader.rest.isEmpty with
  | true => exact .inl rfl
  | false =>
      obtain ⟨error, herror⟩ := h
      rw [herror]
      exact .inr ⟨_, rfl, rfl⟩

theorem greatestFrom_of_entry {best : Option UInt64} (h : reader.read = .ok (some (entry, next))) :
    reader.greatestFrom best = next.greatestFrom (greater best entry.sequence) := by
  rw [greatestFrom]
  split <;> simp_all

theorem greatestFrom_of_refused {best : Option UInt64}
    (h : ∃ error, Frame.decode reader.rest = .error error) : reader.greatestFrom best = best := by
  rw [greatestFrom]
  rcases read_of_refused h with h | ⟨error, h, -⟩ <;> split <;> simp_all

/-- The greatest number of entries with no frame behind them is theirs. -/
theorem greatestFrom_encodeAll {entries : List Entry} {tail : Bytes} {best : Option UInt64}
    (hfits : ∀ entry ∈ entries, entry.Fits) (htail : ∃ error, Frame.decode tail = .error error)
    (hrest : reader.rest = Entry.encodeAll entries ++ tail) :
    reader.greatestFrom best =
      entries.foldl (fun best entry => greater best entry.sequence) best := by
  induction entries generalizing reader best with
  | nil => exact greatestFrom_of_refused (by rwa [hrest])
  | cons entry entries ih =>
      rw [Entry.encodeAll_cons, List.append_assoc] at hrest
      rw [greatestFrom_of_entry (read_encode_append (hfits _ List.mem_cons_self) hrest),
        List.foldl_cons]
      exact ih (fun e he => hfits e (List.mem_cons_of_mem _ he)) rfl

theorem seek_of_below {sequence : UInt64} (h : reader.read = .ok (some (entry, next)))
    (hbelow : entry.sequence < sequence) : reader.seek sequence = next.seek sequence := by
  rw [seek]
  split <;> simp_all

theorem seek_of_reached {sequence : UInt64} (h : reader.read = .ok (some (entry, next)))
    (hreached : sequence ≤ entry.sequence) : reader.seek sequence = (.ok (some entry), next) := by
  rw [seek]
  split <;> simp_all [UInt64.not_lt.2 hreached]

theorem seek_of_end {sequence : UInt64} (h : reader.read = .ok none) :
    reader.seek sequence = (.ok none, reader) := by
  rw [seek]
  split <;> simp_all

theorem seek_of_error {sequence : UInt64} {error : JournalError} (h : reader.read = .error error) :
    reader.seek sequence = (.error error, reader) := by
  rw [seek]
  split <;> simp_all

end SegmentReader

end SegmentedJournal
