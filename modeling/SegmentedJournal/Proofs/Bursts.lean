import SegmentedJournal.Proofs.Codec
/-!
# Bursts of damage

Damage to a frame within four octets in a row does not stay hidden.  A step of the division can be
undone, because the polynomial has its highest coefficient (`Checksum.shiftBit_injective`).  So an
octet that is mixed in keeps different registers different (`Checksum.mix_injective`), and up to
four octets do to a register what their number does that is mixed in at once
(`Checksum.foldl_mix_eq_shift`), whence different ones leave different registers.  Whatever stands
before and behind them, the checksums differ (`Checksum.ofBytes_ne_of_window`).

Of a frame this leaves the checksum's own field, which damage makes another than the body's.  In
both places decoding says so (`Frame.decode_of_burst`); in the frame's length it need not.
-/

namespace SegmentedJournal

namespace Checksum

/-! ### Registers -/

theorem eq_zero_of_shiftBit_eq_zero {r : UInt32} (h : shiftBit r = 0) : r = 0 := by
  have hhalf : (r >>> 1).toNat = r.toNat / 2 := by simp [Nat.shiftRight_eq_div_pow]
  have hlt := r.toNat_lt
  unfold shiftBit at h
  split at h
  · -- What is left is the polynomial, whose highest bit no half of a register has.
    have heq := congrArg UInt32.toNat (UInt32.xor_eq_zero_iff.1 h)
    rw [hhalf, show polynomial.toNat = 3988292384 from rfl] at heq
    omega
  · next hbit =>
    have hzero := congrArg UInt32.toNat h
    have hlow : r.toNat % 2 = 0 := by
      have hand := congrArg UInt32.toNat ((and_one_eq_zero_or_one r).resolve_right hbit)
      simpa [Nat.and_one_is_mod] using hand
    rw [hhalf, UInt32.toNat_zero] at hzero
    exact UInt32.toNat_inj.1 (show r.toNat = 0 by omega)

/-- A step of the division can be undone. -/
theorem shiftBit_injective {a b : UInt32} (h : shiftBit a = shiftBit b) : a = b := by
  refine UInt32.xor_eq_zero_iff.1 (eq_zero_of_shiftBit_eq_zero ?_)
  rw [shiftBit_xor, h, UInt32.xor_self]

theorem shift_injective {count : Nat} {a b : UInt32} (h : shift count a = shift count b) :
    a = b := by
  induction count generalizing a b with
  | zero => exact h
  | succ count ih => exact shiftBit_injective (ih h)

theorem shift_add (m n : Nat) (r : UInt32) : shift (m + n) r = shift n (shift m r) := by
  induction m generalizing r with
  | zero => rw [Nat.zero_add, shift]
  | succ m ih => rw [Nat.succ_add, shift, ih, shift]

/-- Different registers stay different. -/
theorem mix_injective {a b : UInt32} {octet : UInt8} (h : mix a octet = mix b octet) : a = b :=
  (UInt32.xor_left_inj _).1 (shift_injective h)

theorem foldl_mix_injective {a b : UInt32} {bytes : Bytes}
    (h : bytes.foldl mix a = bytes.foldl mix b) : a = b := by
  induction bytes generalizing a b with
  | nil => exact h
  | cons octet bytes ih => exact mix_injective (ih h)

/-! ### Up to four octets -/

/-- An octet and a number above it, mixed in one after the other, are mixed in at once. -/
theorem mix_xor_high (r : UInt32) (octet : UInt8) {high : Nat} (h : high < 16777216) :
    mix r octet ^^^ UInt32.ofNat high =
      shift 8 (r ^^^ UInt32.ofNat (octet.toNat + 256 * high)) := by
  have hoctet := octet.toNat_lt
  generalize hword : UInt32.ofNat (octet.toNat + 256 * high) = word
  have hnumber : word.toNat = octet.toNat + 256 * high := by
    rw [← hword]
    exact UInt32.toNat_ofNat_of_lt' (show _ < 4294967296 by omega)
  have hlow : word.toUInt8 = octet := by
    apply UInt8.toNat_inj.1
    rw [UInt32.toNat_toUInt8, hnumber]
    omega
  have hhigh : word >>> 8 = UInt32.ofNat high := by
    apply UInt32.toNat_inj.1
    rw [UInt32.toNat_ofNat_of_lt' (show _ < 4294967296 by omega)]
    simp [Nat.shiftRight_eq_div_pow, hnumber]
    omega
  calc mix r octet ^^^ UInt32.ofNat high
      = shift 8 (r ^^^ octet.toUInt32) ^^^ shift 8 ((word >>> 8) <<< 8) := by
        rw [shift_high, hhigh, mix]
    _ = shift 8 (r ^^^ (word.toUInt8.toUInt32 ^^^ ((word >>> 8) <<< 8))) := by
        rw [← shift_xor, hlow, UInt32.xor_assoc]
    _ = shift 8 (r ^^^ word) := by rw [low_xor_high]

/-- Up to four octets are mixed in as their number is at once. -/
theorem foldl_mix_eq_shift (r : UInt32) {window : Bytes} (h : window.length ≤ 4) :
    window.foldl mix r = shift (8 * window.length) (r ^^^ UInt32.ofNat (Bytes.toNat window)) := by
  induction window generalizing r with
  | nil => simp [shift, Bytes.toNat]
  | cons octet rest ih =>
      have hrest : rest.length ≤ 3 := Nat.le_of_succ_le_succ h
      have hhigh : Bytes.toNat rest < 16777216 :=
        Nat.lt_of_lt_of_le (Bytes.toNat_lt rest) (Nat.pow_le_pow_right (n := 256) (by decide) hrest)
      rw [List.foldl_cons, ih _ (Nat.le_succ_of_le hrest), mix_xor_high r octet hhigh, ← shift_add,
        List.length_cons, Bytes.toNat, Nat.mul_succ, Nat.add_comm]

/-- Up to four octets leave different registers if they are different. -/
theorem eq_of_foldl_mix_eq {r : UInt32} {window damaged : Bytes} (hle : window.length ≤ 4)
    (hlength : damaged.length = window.length) (h : damaged.foldl mix r = window.foldl mix r) :
    damaged = window := by
  have hlt (bytes : Bytes) (hbytes : bytes.length ≤ 4) : Bytes.toNat bytes < 4294967296 :=
    Nat.lt_of_lt_of_le (Bytes.toNat_lt bytes) (Nat.pow_le_pow_right (n := 256) (by decide) hbytes)
  rw [foldl_mix_eq_shift r hle, foldl_mix_eq_shift r (hlength ▸ hle), hlength] at h
  have hnumber := congrArg UInt32.toNat ((UInt32.xor_right_inj _).1 (shift_injective h))
  rw [UInt32.toNat_ofNat_of_lt' (hlt _ (hlength ▸ hle)), UInt32.toNat_ofNat_of_lt' (hlt _ hle)]
    at hnumber
  rw [← Bytes.ofNat_toNat damaged, hnumber, hlength, Bytes.ofNat_toNat]

/-- Whatever stands before and behind them, different octets, up to four, make different
checksums. -/
theorem ofBytes_ne_of_window {front window damaged back : Bytes} (hle : window.length ≤ 4)
    (hlength : damaged.length = window.length) (hne : damaged ≠ window) :
    ofBytes (front ++ damaged ++ back) ≠ ofBytes (front ++ window ++ back) := by
  intro heq
  rw [ofBytes_eq, ofBytes_eq, UInt32.xor_left_inj] at heq
  simp only [List.foldl_append] at heq
  exact hne (eq_of_foldl_mix_eq hle hlength (foldl_mix_injective heq))

end Checksum

/-! ### Damage -/

/-- Octets are a window, what stands before it and what stands behind. -/
theorem Bytes.take_append_window (low width : Nat) (bytes : Bytes) :
    bytes.take low ++ (bytes.drop low).take width ++ bytes.drop (low + width) = bytes := by
  rw [List.append_assoc, ← List.drop_drop, List.take_append_drop, List.take_append_drop]

/-- The second string differs from the first, and only within `width` octets from `low` on. -/
structure Bytes.Burst (low width : Nat) (bytes damaged : Bytes) : Prop where
  /-- No octet is added or gone. -/
  length_eq : damaged.length = bytes.length
  /-- What stands before is the same. -/
  take_eq : damaged.take low = bytes.take low
  /-- What stands behind is the same. -/
  drop_eq : damaged.drop (low + width) = bytes.drop (low + width)
  /-- Something is not. -/
  ne : damaged ≠ bytes

namespace Bytes.Burst

variable {low width count : Nat} {bytes damaged : Bytes}

theorem take_eq_of_le (h : Burst low width bytes damaged) (hle : count ≤ low) :
    damaged.take count = bytes.take count := by
  have htake := congrArg (List.take count) h.take_eq
  rwa [List.take_take, List.take_take, Nat.min_eq_left hle] at htake

theorem drop_eq_of_le (h : Burst low width bytes damaged) (hle : low + width ≤ count) :
    damaged.drop count = bytes.drop count := by
  have hdrop := congrArg (List.drop (count - (low + width))) h.drop_eq
  rwa [List.drop_drop, List.drop_drop, Nat.add_sub_cancel' hle] at hdrop

/-- What stands before can be left out. -/
theorem drop (h : Burst low width bytes damaged) (hle : count ≤ low) :
    Burst (low - count) width (bytes.drop count) (damaged.drop count) := by
  refine ⟨by rw [List.length_drop, List.length_drop, h.length_eq], ?_, ?_, fun heq => h.ne ?_⟩
  · rw [List.take_drop, List.take_drop, Nat.add_sub_cancel' hle, h.take_eq]
  · rw [List.drop_drop, List.drop_drop, ← Nat.add_assoc, Nat.add_sub_cancel' hle, h.drop_eq]
  · rw [← List.take_append_drop count damaged, h.take_eq_of_le hle, heq, List.take_append_drop]

/-- A burst in a window is one in each that contains it. -/
theorem widen {low' width' : Nat} (h : Burst low width bytes damaged) (hlow : low' ≤ low)
    (hhigh : low + width ≤ low' + width') : Burst low' width' bytes damaged :=
  ⟨h.length_eq, h.take_eq_of_le hlow, h.drop_eq_of_le hhigh, h.ne⟩

/-- The window is not the same. -/
theorem window_ne (h : Burst low width bytes damaged) :
    (damaged.drop low).take width ≠ (bytes.drop low).take width := fun heq =>
  h.ne (by rw [← take_append_window low width damaged, h.take_eq, heq, h.drop_eq,
    take_append_window])

/-- A burst of up to four octets changes the checksum. -/
theorem ofBytes_ne (h : Burst low width bytes damaged) (hwidth : width ≤ 4) :
    Checksum.ofBytes damaged ≠ Checksum.ofBytes bytes := by
  rw [← take_append_window low width damaged, ← take_append_window low width bytes, h.take_eq,
    h.drop_eq]
  refine Checksum.ofBytes_ne_of_window ?_ ?_ h.window_ne
  · exact Nat.le_trans (List.length_take_le _ _) hwidth
  · rw [List.length_take, List.length_take, List.length_drop, List.length_drop, h.length_eq]

end Bytes.Burst

/-! ### Damaged frames -/

namespace Frame

variable {low width total : Nat} {data damaged rest : Bytes} {entry : Entry}

theorem body_append (hle : 8 ≤ data.length) (rest : Bytes) :
    body data.length (data ++ rest) = data.drop 8 := by
  rw [body, Entry.headerSize, List.drop_append_of_le_length hle, List.take_left']
  rw [List.length_drop]

theorem storedChecksum_append (hle : 8 ≤ data.length) (rest : Bytes) :
    storedChecksum (data ++ rest) = storedChecksum data := by
  rw [storedChecksum, storedChecksum, List.drop_append_of_le_length (by omega),
    List.take_append_of_le_length (by rw [List.length_drop]; omega)]

/-- The checksum of a frame is that of everything behind it. -/
theorem storedChecksum_encode (entry : Entry) :
    storedChecksum entry.encode = Checksum.ofBytes (entry.encode.drop 8) := by
  have hstored := storedChecksum_encode_append entry []
  have hbody := body_encode_append entry []
  rw [List.append_nil] at hstored hbody
  rw [hstored, ← hbody, body, Entry.headerSize, List.take_of_length_le]
  exact Nat.le_of_eq (by rw [List.length_drop, Entry.length_encode])

/-- Two frames' checksums are the same just if the octets of the field are. -/
theorem take_eq_of_storedChecksum_eq (hdata : 8 ≤ data.length) (hdamaged : 8 ≤ damaged.length)
    (h : storedChecksum damaged = storedChecksum data) :
    (damaged.drop 4).take 4 = (data.drop 4).take 4 := by
  rw [← ofNat_storedChecksum hdata, ← ofNat_storedChecksum hdamaged, h]

/-- After a burst in either of its places the checksum does not hold. -/
theorem storedChecksum_ne_of_burst (hburst : Bytes.Burst low width entry.encode damaged)
    (hwidth : width ≤ 4) (hplace : 8 ≤ low ∨ 4 ≤ low ∧ low + width ≤ 8) :
    storedChecksum damaged ≠ Checksum.ofBytes (damaged.drop 8) := by
  have hlength := hburst.length_eq
  rw [Entry.length_encode, Entry.encodedLength_eq] at hlength
  rcases hplace with hbody | ⟨hlow, hhigh⟩
  · -- The field is the same, and the body's checksum is another.
    have hstored : storedChecksum damaged = storedChecksum entry.encode := by
      rw [storedChecksum, storedChecksum, List.take_drop, List.take_drop,
        hburst.take_eq_of_le hbody]
    rw [hstored, storedChecksum_encode]
    exact ((hburst.drop hbody).ofBytes_ne hwidth).symm
  · -- The body is the same, and the field is another.
    rw [hburst.drop_eq_of_le hhigh, ← storedChecksum_encode]
    have hsize : 8 ≤ entry.encode.length := by
      rw [Entry.length_encode, Entry.encodedLength_eq]
      omega
    exact fun heq => (hburst.widen hlow hhigh).window_ne
      (take_eq_of_storedChecksum_eq hsize (by omega) heq)

/-- **Bursts**: a frame that was damaged within up to four octets in a row, either behind its
checksum or within it, is refused for its checksum, whatever follows. -/
theorem decode_of_burst (hfits : entry.Fits) (hburst : Bytes.Burst low width entry.encode damaged)
    (hwidth : width ≤ 4) (hplace : 8 ≤ low ∨ 4 ≤ low ∧ low + width ≤ 8) (rest : Bytes) :
    ∃ stored computed, stored ≠ computed ∧
      decode (damaged ++ rest) = .error (.checksumMismatch stored computed) := by
  have hlength : damaged.length = entry.encodedLength :=
    hburst.length_eq.trans (Entry.length_encode entry)
  have hencoded := entry.encodedLength_eq
  have htake : (damaged ++ rest).take 4 = entry.encode.take 4 := by
    rw [List.take_append_of_le_length (by omega), hburst.take_eq_of_le (by omega)]
  obtain ⟨hwhole, htotal⟩ := whole_of_take hfits htake
    (by rw [List.length_append]; omega)
  have hne := storedChecksum_ne_of_burst hburst hwidth hplace
  refine ⟨_, _, hne, ?_⟩
  rw [decode_of_whole hwhole, htotal, ← hlength, decodeSized, body_append (by omega),
    storedChecksum_append (by omega)]
  exact if_neg hne

/-- For example, the four octets of a payload, all of them turned over. -/
theorem decode_of_burst_payload :
    let entry : Entry := ⟨7, [0x61, 0x62, 0x63, 0x64]⟩
    let damaged : Bytes := entry.encode.take 16 ++ [0x9e, 0x9d, 0x9c, 0x9b]
    entry.Fits ∧ Bytes.Burst 16 4 entry.encode damaged ∧
      ∃ stored computed, stored ≠ computed ∧
        decode (damaged ++ [0]) = .error (.checksumMismatch stored computed) := by
  intro entry damaged
  have hlength : entry.encode.length = 20 := Entry.length_encode entry
  have htake : (entry.encode.take 16).length = 16 := by rw [List.length_take, hlength]; rfl
  have hdamaged : damaged.length = 20 := by rw [List.length_append, htake]; rfl
  have hburst : Bytes.Burst 16 4 entry.encode damaged := by
    refine ⟨hdamaged.trans hlength.symm, List.take_left' htake, ?_, fun heq => ?_⟩
    · rw [List.drop_eq_nil_of_le (Nat.le_of_eq hdamaged),
        List.drop_eq_nil_of_le (Nat.le_of_eq hlength)]
    · have hlast := congrArg List.getLast? heq
      simp [damaged, entry, Entry.encode, Entry.body] at hlast
  exact ⟨by decide, hburst,
    decode_of_burst (by decide) hburst (Nat.le_refl 4) (.inl (by decide)) [0]⟩

end Frame

end SegmentedJournal
