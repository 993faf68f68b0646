import SegmentedJournal.Proofs.Names
/-!
# Spelling of names

Which strings are names of segments, and of which.  Two numbers make a name, each behind its mark
and spelled with any count of digits in either case; the first is no greater than the second and
that no greater than `unknownStop`.  Every other string is refused
(`Segment.decodeName?_eq_some_iff`).

What a digit is and what digits spell is said here once more, without the reader: a row of sixteen
digits, and the value of each place (`Hex.number`).  The reader takes the digits from the front
instead and multiplies as it goes (`Hex.extend?_eq_some_iff`).

Written names have as many octets each, so they are compared digit by digit from the front, and
that is how their ranges compare (`Segment.octets_encodeName_lt_iff`).
-/

namespace SegmentedJournal

/-! ### Digits -/

namespace Hex

/-- The sixteen digits, each at the place of its value. -/
def row : List Char :=
  ['0', '1', '2', '3', '4', '5', '6', '7', '8', '9', 'a', 'b', 'c', 'd', 'e', 'f']

/-- The digits of either case. -/
def IsDigit (c : Char) : Prop :=
  c.toLower ∈ row

instance (c : Char) : Decidable (IsDigit c) :=
  inferInstanceAs (Decidable (c.toLower ∈ row))

/-- The number that digits spell, by the values of their places. -/
def number : List Char → Nat
  | [] => 0
  | c :: rest => row.idxOf c.toLower * Nat.pow 16 rest.length + number rest

/-- One digit or more, whose number is `n`. -/
structure Spells (digits : List Char) (n : Nat) : Prop where
  /-- There is a digit. -/
  nonempty : digits ≠ []
  /-- There is nothing else. -/
  every : ∀ c ∈ digits, IsDigit c
  /-- Their number is `n`. -/
  reads : number digits = n

/-- Beyond the first 128 codes there are no digits, and no letters with a lower case of theirs. -/
theorem value?_of_le {c : Char} (h : 128 ≤ c.toNat) : value? c = none ∧ ¬IsDigit c := by
  have hle (d : Char) (hd : d.toNat < 128) : ¬c ≤ d := fun hcd =>
    absurd (show c.toNat ≤ d.toNat from hcd) (by omega)
  refine ⟨?_, fun hdigit => ?_⟩
  · unfold value?
    rw [if_neg fun h => hle '9' (by decide) h.2, if_neg fun h => hle 'f' (by decide) h.2,
      if_neg fun h => hle 'F' (by decide) h.2]
  · have hlower : c.toLower = c := by
      unfold Char.toLower
      exact dif_neg fun h => hle 'Z' (by decide) h.2
    have hrow : (row.all fun d => d.toNat < 128) = true := by decide
    have := of_decide_eq_true (List.all_eq_true.1 hrow c (hlower ▸ hdigit))
    omega

theorem value?_ofNat (n : Nat) (h : n < 128) :
    value? (Char.ofNat n) =
      if IsDigit (Char.ofNat n) then some (row.idxOf (Char.ofNat n).toLower) else none := by
  revert n
  decide

/-- The reader's digits are those of the row, with their values there. -/
theorem value?_eq (c : Char) :
    value? c = if IsDigit c then some (row.idxOf c.toLower) else none := by
  by_cases h : c.toNat < 128
  · rw [← Char.ofNat_toNat c]
    exact value?_ofNat c.toNat h
  · obtain ⟨hnone, hdigit⟩ := value?_of_le (Nat.le_of_not_lt h)
    rw [hnone, if_neg hdigit]

/-- Reading on from `n` puts the digits behind it. -/
theorem extend?_eq_some_iff {n m : Nat} {digits : List Char} :
    extend? n digits = some m ↔
      (∀ c ∈ digits, IsDigit c) ∧ Nat.pow 16 digits.length * n + number digits = m := by
  induction digits generalizing n with
  | nil => simp [extend?, number]
  | cons c rest ih =>
    have hstep : extend? n (c :: rest) =
        ((value? c).map (16 * n + ·)).bind fun m => extend? m rest := rfl
    rw [hstep, value?_eq, List.forall_mem_cons]
    by_cases hc : IsDigit c
    · have hpow : Nat.pow 16 (rest.length + 1) = Nat.pow 16 rest.length * 16 := rfl
      rw [if_pos hc, Option.map_some, Option.bind_some, ih]
      simp only [hc, true_and, List.length_cons, number, hpow, Nat.mul_add, Nat.mul_assoc,
        Nat.add_assoc, Nat.mul_comm (row.idxOf c.toLower)]
    · rw [if_neg hc]
      exact ⟨fun h => (by cases h), fun h => absurd h.1.1 hc⟩

theorem parse?_eq_some_iff {digits : List Char} {n : Nat} :
    parse? digits = some n ↔ Spells digits n := by
  cases digits with
  | nil => exact ⟨fun h => (by cases h), fun h => absurd rfl h.nonempty⟩
  | cons c rest =>
    rw [show parse? (c :: rest) = extend? 0 (c :: rest) from rfl, extend?_eq_some_iff,
      Nat.mul_zero, Nat.zero_add]
    exact ⟨fun h => ⟨List.cons_ne_nil _ _, h.1, h.2⟩, fun h => ⟨h.every, h.reads⟩⟩

theorem dash_notMem {digits : List Char} {n : Nat} (h : Spells digits n) : '-' ∉ digits :=
  fun hdash => absurd (h.every '-' hdash) (by decide)

end Hex

/-! ### Names that are read -/

namespace Segment

theorem splitAtDash?_eq_some_iff {chars front back : List Char} :
    splitAtDash? chars = some (front, back) ↔ chars = front ++ '-' :: back ∧ '-' ∉ front := by
  constructor
  · intro h
    induction chars generalizing front with
    | nil => cases h
    | cons c rest ih =>
      unfold splitAtDash? at h
      split at h
      · next hc =>
        cases h
        exact ⟨by rw [hc]; rfl, List.not_mem_nil⟩
      · next hc =>
        obtain ⟨⟨front, back⟩, hrest, hcons⟩ := Option.map_eq_some_iff.1 h
        cases hcons
        obtain ⟨rfl, hfront⟩ := ih hrest
        exact ⟨rfl, fun hdash => (List.mem_cons.1 hdash).elim (fun h => hc h.symm) hfront⟩
  · rintro ⟨rfl, hfront⟩
    exact splitAtDash?_append fun c hc hdash => hfront (hdash ▸ hc)

theorem decodeField?_eq_some_iff {field : List Char} {n : UInt64} :
    decodeField? field = some n ↔
      ∃ digits, field = '0' :: 'x' :: digits ∧ Hex.Spells digits n.toNat := by
  constructor
  · intro h
    unfold decodeField? at h
    split at h
    · next digits =>
      obtain ⟨m, hm, h⟩ := Option.bind_eq_some_iff.1 h
      split at h
      · next hlt =>
        cases h
        refine ⟨digits, rfl, ?_⟩
        rw [UInt64.toNat_ofNat_of_lt' hlt]
        exact Hex.parse?_eq_some_iff.1 hm
      · cases h
    · cases h
  · rintro ⟨digits, rfl, hspells⟩
    have hlt : n.toNat < UInt64.size := n.toNat_lt
    simp only [decodeField?, Hex.parse?_eq_some_iff.2 hspells, Option.bind_some, if_pos hlt,
      UInt64.ofNat_toNat]

theorem decodeName?_eq_some_iff {name : String} {start stop : UInt64} :
    decodeName? name = some (start, stop) ↔
      ∃ digits digits', name = "0x" ++ String.ofList digits ++ "-0x" ++ String.ofList digits' ∧
        Hex.Spells digits start.toNat ∧ Hex.Spells digits' stop.toNat ∧
        start ≤ stop ∧ stop ≤ unknownStop := by
  constructor
  · intro h
    have hbounds := bounds_of_decodeName? h
    unfold decodeName? at h
    simp only [Option.bind_eq_bind, Option.bind_eq_some_iff] at h
    obtain ⟨⟨front, back⟩, hsplit, start', hfront, stop', hback, h⟩ := h
    split at h
    · cases h
      obtain ⟨digits, rfl, hdigits⟩ := decodeField?_eq_some_iff.1 hfront
      obtain ⟨digits', rfl, hdigits'⟩ := decodeField?_eq_some_iff.1 hback
      refine ⟨digits, digits', String.toList_inj.1 ?_, hdigits, hdigits', hbounds⟩
      rw [(splitAtDash?_eq_some_iff.1 hsplit).1]
      simp
    · cases h
  · rintro ⟨digits, digits', rfl, hdigits, hdigits', hbounds⟩
    have hsplit : splitAtDash?
        ("0x" ++ String.ofList digits ++ "-0x" ++ String.ofList digits').toList =
          some ('0' :: 'x' :: digits, '0' :: 'x' :: digits') := by
      refine splitAtDash?_eq_some_iff.2 ⟨by simp, ?_⟩
      simpa using Hex.dash_notMem hdigits
    have hfront := decodeField?_eq_some_iff.2 ⟨digits, rfl, hdigits⟩
    have hback := decodeField?_eq_some_iff.2 ⟨digits', rfl, hdigits'⟩
    rw [decodeName?, hsplit]
    simp [hfront, hback, hbounds]

variable {start stop : UInt64}

/-- What is joined to a directory under a range's name is the segment of that range. -/
theorem ofLocation?_join (kind : SegmentKind) (directory : String) (h : start ≤ stop)
    (hstop : stop ≤ unknownStop) :
    ofLocation? kind (Path.join directory (encodeName start stop)) =
      some ⟨start, stop, Path.join directory (encodeName start stop), kind⟩ := by
  rw [ofLocation?, Path.fileName_join _ _ (slash_notMem_encodeName start stop),
    decodeName?_encodeName h hstop]
  rfl

theorem ofLocation?_log (journal : Journal) (h : start ≤ stop) (hstop : stop ≤ unknownStop) :
    ofLocation? .log (journal.log start stop).location = some (journal.log start stop) := by
  rw [Journal.log, ofLocation?_join .log journal.logDir h hstop]

theorem ofLocation?_checkpoint (journal : Journal) (h : start ≤ stop) (hstop : stop ≤ unknownStop) :
    ofLocation? .checkpoint (journal.checkpoint start stop).location =
      some (journal.checkpoint start stop) := by
  rw [Journal.checkpoint, ofLocation?_join .checkpoint journal.checkpointDir h hstop]

end Segment

/-! ### Order of written names -/

namespace Hex

theorem digit_lt_iff (v : Nat) (hv : v < 16) (w : Nat) (hw : w < 16) :
    (digit v < digit w ↔ v < w) ∧ (digit v = digit w ↔ v = w) := by
  revert v
  revert w
  decide

theorem append_lt_append_iff {front front' rest rest' : List Char}
    (h : front.length = front'.length) :
    front ++ rest < front' ++ rest' ↔ front < front' ∨ front = front' ∧ rest < rest' := by
  induction front generalizing front' with
  | nil =>
    obtain rfl := List.length_eq_zero_iff.1 h.symm
    simp
  | cons c front ih =>
    cases front' with
    | nil => cases h
    | cons d front' =>
      simp only [List.cons_append, List.cons_lt_cons_iff, ih (Nat.succ.inj h), List.cons.injEq]
      grind

/-- Digits of one count compare as the numbers do as far as the count reaches. -/
theorem padded_lt_iff (count n m : Nat) :
    (padded count n < padded count m ↔ n % Nat.pow 16 count < m % Nat.pow 16 count) ∧
      (padded count n = padded count m ↔ n % Nat.pow 16 count = m % Nat.pow 16 count) := by
  induction count generalizing n m with
  | zero => simp [padded, Nat.mod_one]
  | succ count ih =>
    obtain ⟨hlt, heq⟩ := ih (n / 16) (m / 16)
    obtain ⟨hdigit, hdigits⟩ := digit_lt_iff (n % 16) (Nat.mod_lt _ (by decide)) (m % 16)
      (Nat.mod_lt _ (by decide))
    have hmod (k : Nat) : k % Nat.pow 16 (count + 1) = k % 16 + 16 * (k / 16 % Nat.pow 16 count) := by
      rw [show Nat.pow 16 (count + 1) = 16 * Nat.pow 16 count from Nat.mul_comm .., Nat.mod_mul]
    have hlength : (padded count (n / 16)).length = (padded count (m / 16)).length := by simp
    rw [hmod, hmod]
    constructor
    · rw [padded, padded, append_lt_append_iff hlength, hlt, heq, List.cons_lt_cons_iff, hdigit]
      simp only [List.lt_irrefl, and_false, or_false]
      omega
    · have happend : padded (count + 1) n = padded (count + 1) m ↔
          padded count (n / 16) = padded count (m / 16) ∧ digit (n % 16) = digit (m % 16) :=
        ⟨fun h => (List.append_inj h hlength).imp_right List.singleton_inj.1,
          fun h => by rw [padded, padded, h.1, h.2]⟩
      rw [happend, heq, hdigits]
      omega

end Hex

namespace Segment

theorem encodeField_lt_iff {n m : UInt64} : encodeField n < encodeField m ↔ n < m := by
  have hlt := (Hex.padded_lt_iff 16 n.toNat m.toNat).1
  rw [Nat.mod_eq_of_lt (show n.toNat < Nat.pow 16 16 from n.toNat_lt),
    Nat.mod_eq_of_lt (show m.toNat < Nat.pow 16 16 from m.toNat_lt)] at hlt
  simp only [encodeField, List.cons_lt_cons_self, hlt, UInt64.lt_iff_toNat_lt]

theorem encodeField_inj {n m : UInt64} : encodeField n = encodeField m ↔ n = m := by
  refine ⟨fun h => ?_, fun h => h ▸ rfl⟩
  have hread := decodeField?_encodeField n
  rw [h, decodeField?_encodeField] at hread
  exact (Option.some.inj hread).symm

theorem encodeName_lt_iff {start stop start' stop' : UInt64} :
    encodeName start stop < encodeName start' stop' ↔
      start < start' ∨ start = start' ∧ stop < stop' := by
  have hlength (n : UInt64) : (encodeField n).length = 18 := by
    rw [encodeField, List.length_cons, List.length_cons, Hex.length_padded]
  rw [String.lt_iff, encodeName, encodeName, String.toList_ofList, String.toList_ofList,
    Hex.append_lt_append_iff ((hlength start).trans (hlength start').symm),
    List.cons_lt_cons_self, encodeField_lt_iff, encodeField_lt_iff, encodeField_inj]

/-- The octets of a name. -/
def octets (name : String) : Bytes :=
  name.toUTF8.data.toList

theorem octets_ofList {chars : List Char} (h : ∀ c ∈ chars, c.toNat < 128) :
    octets (String.ofList chars) = chars.map fun c => c.val.toUInt8 := by
  rw [octets, String.toUTF8_eq_toByteArray, String.toByteArray_ofList]
  induction chars with
  | nil => rw [List.utf8Encode_nil]; rfl
  | cons c rest ih =>
    have hsize : c.utf8Size = 1 :=
      Char.utf8Size_eq_one_iff.2 (Nat.le_of_lt_succ (h c List.mem_cons_self))
    rw [List.utf8Encode_cons, List.utf8Encode_singleton, String.utf8EncodeChar_eq_singleton hsize,
      ByteArray.toList_data_append, List.toList_data_toByteArray,
      ih fun d hd => h d (List.mem_cons_of_mem _ hd)]
    rfl

/-- Octets below 128 sort as the characters that they stand for. -/
theorem map_lt_map_iff {chars chars' : List Char} (h : ∀ c ∈ chars, c.toNat < 128)
    (h' : ∀ c ∈ chars', c.toNat < 128) :
    (chars.map fun c => c.val.toUInt8) < (chars'.map fun c => c.val.toUInt8) ↔
      chars < chars' := by
  induction chars generalizing chars' with
  | nil => cases chars' <;> simp
  | cons c rest ih =>
    cases chars' with
    | nil => simp
    | cons d rest' =>
      obtain ⟨hc, hrest⟩ := List.forall_mem_cons.1 h
      obtain ⟨hd, hrest'⟩ := List.forall_mem_cons.1 h'
      have hcode (e : Char) (he : e.toNat < 128) : e.val.toUInt8.toNat = e.toNat := by
        rw [UInt32.toNat_toUInt8]
        exact Nat.mod_eq_of_lt (Nat.lt_trans he (by decide))
      have hlt : c.val.toUInt8 < d.val.toUInt8 ↔ c < d := by
        rw [UInt8.lt_iff_toNat_lt, hcode c hc, hcode d hd]
        rfl
      have heq : c.val.toUInt8 = d.val.toUInt8 ↔ c = d := by
        rw [← UInt8.toNat_inj, hcode c hc, hcode d hd, Char.toNat_inj]
      rw [List.map_cons, List.map_cons, List.cons_lt_cons_iff, List.cons_lt_cons_iff, hlt, heq,
        ih hrest hrest']

theorem toNat_lt_of_mem_encodeField {n : UInt64} {c : Char} (h : c ∈ encodeField n) :
    c.toNat < 128 := by
  have hdigit : ∀ v < 16, (Hex.digit v).toNat < 128 := by decide
  rcases List.mem_cons.1 h with rfl | h
  · decide
  · rcases List.mem_cons.1 h with rfl | h
    · decide
    · obtain ⟨v, hv, rfl⟩ := Hex.mem_padded h
      exact hdigit v hv

theorem octets_encodeName_lt_iff {start stop start' stop' : UInt64} :
    octets (encodeName start stop) < octets (encodeName start' stop') ↔
      start < start' ∨ start = start' ∧ stop < stop' := by
  have hcodes (start stop : UInt64) :
      ∀ c ∈ encodeField start ++ '-' :: encodeField stop, c.toNat < 128 := by
    intro c hc
    rcases List.mem_append.1 hc with hc | hc
    · exact toNat_lt_of_mem_encodeField hc
    · rcases List.mem_cons.1 hc with rfl | hc
      · decide
      · exact toNat_lt_of_mem_encodeField hc
  rw [← encodeName_lt_iff, String.lt_iff, encodeName, encodeName, octets_ofList (hcodes start stop),
    octets_ofList (hcodes start' stop'), map_lt_map_iff (hcodes start stop) (hcodes start' stop'),
    String.toList_ofList, String.toList_ofList]

/-! ### What names say -/

/-- **Names are read exactly and sort as their ranges.**  A string is a range's name just if it
spells the range's numbers, in order and within bounds.  What is written for such a range is read
as it, and so is the location of its log or checkpoint in any journal.  Written names compare,
octet by octet, as their ranges do by start and then by stop, whatever the numbers. -/
theorem names_exact :
    (∀ name start stop, decodeName? name = some (start, stop) ↔
      ∃ digits digits', name = "0x" ++ String.ofList digits ++ "-0x" ++ String.ofList digits' ∧
        Hex.Spells digits start.toNat ∧ Hex.Spells digits' stop.toNat ∧
        start ≤ stop ∧ stop ≤ unknownStop) ∧
    (∀ start stop, start ≤ stop → stop ≤ unknownStop →
      decodeName? (encodeName start stop) = some (start, stop) ∧
      ∀ location config,
        ofLocation? .log ((Journal.rooted location config).log start stop).location =
          some ((Journal.rooted location config).log start stop) ∧
        ofLocation? .checkpoint ((Journal.rooted location config).checkpoint start stop).location =
          some ((Journal.rooted location config).checkpoint start stop)) ∧
    ∀ start stop start' stop',
      octets (encodeName start stop) < octets (encodeName start' stop') ↔
        start < start' ∨ start = start' ∧ stop < stop' := by
  refine ⟨fun name start stop => decodeName?_eq_some_iff, fun start stop h hstop => ?_,
    fun start stop start' stop' => octets_encodeName_lt_iff⟩
  exact ⟨decodeName?_encodeName h hstop, fun location config =>
    ⟨ofLocation?_log _ h hstop, ofLocation?_checkpoint _ h hstop⟩⟩

/-- A name with both cases and a count of digits that no number needs is read, and the name that
would be written for its range is behind the one for a smaller stop. -/
theorem names_exact_instance :
    decodeName? "0x0A-0x00000000000000000b" = some (10, 11) ∧
      ofLocation? .log ((Journal.rooted "journal//" {}).log 10 11).location =
        some ((Journal.rooted "journal//" {}).log 10 11) ∧
      octets (encodeName 10 10) < octets (encodeName 10 11) := by
  refine ⟨(names_exact.1 _ _ _).2 ⟨"0A".toList, "00000000000000000b".toList, by decide,
    Hex.parse?_eq_some_iff.1 (by decide), Hex.parse?_eq_some_iff.1 (by decide), by decide,
    by decide⟩, ((names_exact.2.1 10 11 (by decide) (by decide)).2 _ _).1,
    (names_exact.2.2 _ _ _ _).2 (.inr ⟨rfl, by decide⟩)⟩

end Segment

end SegmentedJournal
