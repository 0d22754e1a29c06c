import RecordLog.Text.Utf8

/-!
# Decoding is exact

A byte string is decoded to a text exactly if it is the encoding of that text. Between the two
stands the grammar of the spellings of a code point: every character is encoded as a spelling,
a spelling is read as its character, and whatever is read as a character was a spelling.
-/

namespace RecordLog.Text.Utf8

/-! ## Lead bytes -/

theorem lead?_eq (a : UInt8) : lead? a =
    if 0xC2 ≤ a.toNat ∧ a.toNat ≤ 0xDF then some ⟨1, 0x80, 0xBF⟩
    else if 0xE0 ≤ a.toNat ∧ a.toNat ≤ 0xEF then
      some ⟨2, if a.toNat = 0xE0 then 0xA0 else 0x80, if a.toNat = 0xED then 0x9F else 0xBF⟩
    else if 0xF0 ≤ a.toNat ∧ a.toNat ≤ 0xF4 then
      some ⟨3, if a.toNat = 0xF0 then 0x90 else 0x80, if a.toNat = 0xF4 then 0x8F else 0xBF⟩
    else none := by
  have heq (b : UInt8) : a = b ↔ a.toNat = b.toNat := UInt8.toNat_inj.symm
  simp only [lead?, Bool.and_eq_true, decide_eq_true_eq, UInt8.le_iff_toNat_le, beq_iff_eq, heq,
    UInt8.reduceToNat]
  grind

def Trails (b : UInt8) : Prop := 0x80 ≤ b.toNat ∧ b.toNat ≤ 0xBF

/-- Whether a byte may stand right behind a lead byte. Spellings that are too long, surrogates and
what is behind the last code point are told by this byte. -/
def Follows (a b : UInt8) : Prop :=
  Trails b ∧ (a.toNat = 0xE0 → 0xA0 ≤ b.toNat) ∧ (a.toNat = 0xED → b.toNat ≤ 0x9F) ∧
    (a.toNat = 0xF0 → 0x90 ≤ b.toNat) ∧ (a.toNat = 0xF4 → b.toNat ≤ 0x8F)

theorem isTrailing_iff {b : UInt8} : isTrailing b = true ↔ Trails b := by
  simp [isTrailing, Trails, UInt8.le_iff_toNat_le]

/-- What a lead byte asks of the bytes behind it. -/
theorem lead?_spec {a : UInt8} {lead : Lead} (h : lead? a = some lead) :
    (lead.more = 1 ∧ 0xC2 ≤ a.toNat ∧ a.toNat ≤ 0xDF ∨
      lead.more = 2 ∧ 0xE0 ≤ a.toNat ∧ a.toNat ≤ 0xEF ∨
      lead.more = 3 ∧ 0xF0 ≤ a.toNat ∧ a.toNat ≤ 0xF4) ∧
      ∀ b, (lead.low ≤ b && b ≤ lead.high) = true ↔ Follows a b := by
  rw [lead?_eq] at h
  split at h
  · next ha =>
    obtain rfl := Option.some.inj h
    refine ⟨.inl ⟨rfl, ha⟩, fun b => ?_⟩
    simp only [Bool.and_eq_true, decide_eq_true_eq, UInt8.le_iff_toNat_le, Follows, Trails,
      UInt8.reduceToNat]
    omega
  split at h
  · next ha =>
    obtain rfl := Option.some.inj h
    refine ⟨.inr (.inl ⟨rfl, ha⟩), fun b => ?_⟩
    simp only [Bool.and_eq_true, decide_eq_true_eq, UInt8.le_iff_toNat_le, Follows, Trails,
      apply_ite UInt8.toNat, UInt8.reduceToNat]
    split <;> split <;> omega
  split at h
  · next ha =>
    obtain rfl := Option.some.inj h
    refine ⟨.inr (.inr ⟨rfl, ha⟩), fun b => ?_⟩
    simp only [Bool.and_eq_true, decide_eq_true_eq, UInt8.le_iff_toNat_le, Follows, Trails,
      apply_ite UInt8.toNat, UInt8.reduceToNat]
    split <;> split <;> omega
  · cases h

theorem exists_lead {a : UInt8} (h : 0xC2 ≤ a.toNat ∧ a.toNat ≤ 0xF4) :
    ∃ lead, lead? a = some lead := by
  rw [lead?_eq]
  split
  · exact ⟨_, rfl⟩
  split
  · exact ⟨_, rfl⟩
  split
  · exact ⟨_, rfl⟩
  · omega

/-! ## Spellings -/

/-- The bytes that spell a code point. -/
inductive Spells : Bytes → Nat → Prop where
  | one {a : UInt8} (ha : a.toNat < 0x80) : Spells [a] a.toNat
  | two {a b : UInt8} (ha : 0xC2 ≤ a.toNat ∧ a.toNat ≤ 0xDF) (hb : Follows a b) :
      Spells [a, b] (a.toNat % 32 * 64 + payload b)
  | three {a b c : UInt8} (ha : 0xE0 ≤ a.toNat ∧ a.toNat ≤ 0xEF) (hb : Follows a b)
      (hc : Trails c) :
      Spells [a, b, c] (a.toNat % 16 * 4096 + payload b * 64 + payload c)
  | four {a b c d : UInt8} (ha : 0xF0 ≤ a.toNat ∧ a.toNat ≤ 0xF4) (hb : Follows a b)
      (hc : Trails c) (hd : Trails d) :
      Spells [a, b, c, d]
        (a.toNat % 8 * 262144 + payload b * 4096 + payload c * 64 + payload d)

/-- A spelling is read as its character. -/
theorem segments_append {front : Bytes} {n : Nat} (h : Spells front n) (rest : Bytes) :
    segments (front ++ rest) = .char (Char.ofNat n) :: segments rest := by
  have hlong {a : UInt8} (ha : 0xC2 ≤ a.toNat) : ¬ a < 0x80 := by
    rw [UInt8.lt_iff_toNat_lt]
    change ¬ a.toNat < 0x80
    omega
  cases h with
  | @one a ha =>
    have hshort : a < 0x80 := UInt8.lt_iff_toNat_lt.mpr ha
    rw [List.singleton_append, segments, if_pos hshort]
  | @two a b ha hb =>
    obtain ⟨lead, hlead⟩ := exists_lead (a := a) (by omega)
    obtain ⟨hmore, hrange⟩ := lead?_spec hlead
    have hmore' : lead.more = 1 := by omega
    rw [List.cons_append, segments, if_neg (hlong ha.1), hlead]
    simp only [List.cons_append, List.nil_append, (hrange b).mpr hb, hmore', if_true]
  | @three a b c ha hb hc =>
    obtain ⟨lead, hlead⟩ := exists_lead (a := a) (by omega)
    obtain ⟨hmore, hrange⟩ := lead?_spec hlead
    have hmore' : lead.more = 2 := by omega
    rw [List.cons_append, segments, if_neg (hlong (by omega)), hlead]
    simp only [List.cons_append, List.nil_append, (hrange b).mpr hb, hmore', if_true,
      isTrailing_iff.mpr hc]
    rfl
  | @four a b c d ha hb hc hd =>
    obtain ⟨lead, hlead⟩ := exists_lead (a := a) (by omega)
    obtain ⟨hmore, hrange⟩ := lead?_spec hlead
    have hmore' : lead.more = 3 := by omega
    rw [List.cons_append, segments, if_neg (hlong (by omega)), hlead]
    simp only [List.cons_append, List.nil_append, (hrange b).mpr hb, hmore', if_true,
      isTrailing_iff.mpr hc, isTrailing_iff.mpr hd]
    rfl

/-- What is read as a character is a spelling of it. -/
theorem exists_spelling {data : Bytes} {x : Char} {tail : List Segment}
    (h : segments data = .char x :: tail) :
    ∃ front rest n, data = front ++ rest ∧ Spells front n ∧ x = Char.ofNat n ∧
      tail = segments rest := by
  rcases data with _ | ⟨a, r⟩
  · simp [segments] at h
  rw [segments] at h
  by_cases ha : a < 0x80
  · rw [if_pos ha] at h
    simp only [List.cons.injEq, Segment.char.injEq] at h
    exact ⟨[a], r, _, rfl, .one (UInt8.lt_iff_toNat_lt.mp ha), h.1.symm, h.2.symm⟩
  rw [if_neg ha] at h
  cases hlead : lead? a with
  | none =>
    rw [hlead] at h
    cases h
  | some lead =>
    rw [hlead] at h
    obtain ⟨hmore, hrange⟩ := lead?_spec hlead
    rcases r with _ | ⟨b, r₂⟩
    · cases h
    by_cases hb : Follows a b
    · simp only [(hrange b).mpr hb, if_true] at h
      by_cases hone : lead.more = 1
      · simp only [if_pos hone, List.cons.injEq, Segment.char.injEq] at h
        exact ⟨[a, b], r₂, _, rfl, .two (by omega) hb, h.1.symm, h.2.symm⟩
      simp only [if_neg hone] at h
      rcases r₂ with _ | ⟨c, r₃⟩
      · cases h
      by_cases hc : isTrailing c = true
      · simp only [if_pos hc] at h
        by_cases htwo : lead.more = 2
        · simp only [if_pos htwo, List.cons.injEq, Segment.char.injEq] at h
          exact ⟨[a, b, c], r₃, _, rfl, .three (by omega) hb (isTrailing_iff.mp hc), h.1.symm,
            h.2.symm⟩
        simp only [if_neg htwo] at h
        rcases r₃ with _ | ⟨d, r₄⟩
        · cases h
        by_cases hd : isTrailing d = true
        · simp only [if_pos hd, List.cons.injEq, Segment.char.injEq] at h
          exact ⟨[a, b, c, d], r₄, _, rfl,
            .four (by omega) hb (isTrailing_iff.mp hc) (isTrailing_iff.mp hd), h.1.symm, h.2.symm⟩
        · simp only [if_neg hd] at h
          cases h
      · simp only [if_neg hc] at h
        cases h
    · simp only [if_neg (mt (hrange b).mp hb)] at h
      cases h

theorem Spells.of_eq {data : Bytes} {m n : Nat} (h : Spells data m) (heq : m = n) :
    Spells data n := heq ▸ h

/-- A character is encoded as a spelling of its code point. -/
theorem spells_encodeChar (x : Char) : Spells (encodeChar x) x.toNat := by
  have hvalid : x.toNat < 0xD800 ∨ 0xDFFF < x.toNat ∧ x.toNat < 0x110000 := x.valid
  have hnat {n : Nat} (h : n < 256) : (UInt8.ofNat n).toNat = n := by
    rw [UInt8.toNat_ofNat', Nat.mod_eq_of_lt h]
  rw [encodeChar]
  generalize x.toNat = n at *
  split
  · next hn =>
    have ha := hnat (n := n) (by omega)
    exact (Spells.one (by omega)).of_eq ha
  split
  · next hn =>
    have ha := hnat (n := 0xC0 + n / 64) (by omega)
    have hb := hnat (n := 0x80 + n % 64) (by omega)
    refine (Spells.two (by omega) ?_).of_eq ?_
    · unfold Follows Trails
      omega
    · rw [payload]
      omega
  split
  · next hn =>
    have ha := hnat (n := 0xE0 + n / 4096) (by omega)
    have hb := hnat (n := 0x80 + n / 64 % 64) (by omega)
    have hc := hnat (n := 0x80 + n % 64) (by omega)
    refine (Spells.three (by omega) ?_ ?_).of_eq ?_
    · unfold Follows Trails
      omega
    · unfold Trails
      omega
    · rw [payload, payload]
      omega
  · have ha := hnat (n := 0xF0 + n / 262144) (by omega)
    have hb := hnat (n := 0x80 + n / 4096 % 64) (by omega)
    have hc := hnat (n := 0x80 + n / 64 % 64) (by omega)
    have hd := hnat (n := 0x80 + n % 64) (by omega)
    refine (Spells.four (by omega) ?_ ?_ ?_).of_eq ?_
    · unfold Follows Trails
      omega
    · unfold Trails
      omega
    · unfold Trails
      omega
    · rw [payload, payload, payload]
      omega

theorem toNat_ofNat {n : Nat} (h : n.isValidChar) : (Char.ofNat n).toNat = n := by
  rw [Char.ofNat, dif_pos h]
  rfl

/-- A spelling is the encoding of its code point, which is that of a character. -/
theorem Spells.encodeChar_eq {data : Bytes} {n : Nat} (h : Spells data n) :
    encodeChar (Char.ofNat n) = data := by
  have heq {n : Nat} {b : UInt8} (hn : n = b.toNat) : UInt8.ofNat n = b := by
    rw [hn, UInt8.ofNat_toNat]
  cases h with
  | @one a ha =>
    rw [encodeChar, toNat_ofNat (.inl (by omega)), if_pos ha, heq rfl]
  | @two a b ha hb =>
    unfold Follows Trails at hb
    rw [payload, encodeChar, toNat_ofNat (.inl (by omega)), if_neg (by omega), if_pos (by omega),
      heq (b := a) (by omega), heq (b := b) (by omega)]
  | @three a b c ha hb hc =>
    unfold Follows Trails at hb
    unfold Trails at hc
    have hvalid : (a.toNat % 16 * 4096 + b.toNat % 64 * 64 + c.toNat % 64).isValidChar := by
      unfold Nat.isValidChar
      omega
    rw [payload, payload, encodeChar, toNat_ofNat hvalid, if_neg (by omega), if_neg (by omega),
      if_pos (by omega), heq (b := a) (by omega), heq (b := b) (by omega),
      heq (b := c) (by omega)]
  | @four a b c d ha hb hc hd =>
    unfold Follows Trails at hb
    unfold Trails at hc hd
    have hvalid : (a.toNat % 8 * 262144 + b.toNat % 64 * 4096 + c.toNat % 64 * 64 +
        d.toNat % 64).isValidChar := by
      unfold Nat.isValidChar
      omega
    rw [payload, payload, payload, encodeChar, toNat_ofNat hvalid, if_neg (by omega),
      if_neg (by omega), if_neg (by omega), heq (b := a) (by omega), heq (b := b) (by omega),
      heq (b := c) (by omega), heq (b := d) (by omega)]

/-! ## Texts -/

theorem segments_encodeChar (x : Char) (rest : Bytes) :
    segments (encodeChar x ++ rest) = .char x :: segments rest := by
  rw [segments_append (spells_encodeChar x), Char.ofNat_toNat]

/-- The encoding of characters is read as these characters. -/
theorem segments_flatMap (chars : List Char) :
    segments (chars.flatMap encodeChar) = chars.map .char := by
  induction chars with
  | nil => rfl
  | cons x rest ih => rw [List.flatMap_cons, segments_encodeChar, ih, List.map_cons]

theorem strict_map (chars : List Char) (index : Nat) :
    strict index (chars.map .char) = .ok chars := by
  induction chars generalizing index with
  | nil => rfl
  | cons x rest ih =>
    rw [List.map_cons, strict, ih]
    rfl

theorem segments_ne_nil (a : UInt8) (rest : Bytes) : segments (a :: rest) ≠ [] := by
  rw [segments]
  repeat' split
  all_goals exact List.cons_ne_nil _ _

/-- If characters are read without a flaw, the bytes are their encoding. -/
theorem flatMap_of_strict {data : Bytes} {chars : List Char} {index : Nat}
    (h : strict index (segments data) = .ok chars) : chars.flatMap encodeChar = data := by
  -- Every character that is read takes one spelling off the bytes.
  induction chars generalizing data index with
  | nil =>
    rcases data with _ | ⟨a, rest⟩
    · rfl
    cases hsegments : segments (a :: rest) with
    | nil => exact absurd hsegments (segments_ne_nil a rest)
    | cons segment tail =>
      rw [hsegments] at h
      cases segment with
      | char x =>
        rw [strict] at h
        cases htail : strict (index + (encodeChar x).length) tail <;> rw [htail] at h <;> cases h
      | invalid size => cases h
      | incomplete => cases h
  | cons y chars ih =>
    cases hsegments : segments data with
    | nil =>
      rw [hsegments] at h
      cases h
    | cons segment tail =>
      rw [hsegments] at h
      cases segment with
      | char x =>
        obtain ⟨front, rest, n, rfl, hspells, rfl, rfl⟩ := exists_spelling hsegments
        rw [strict] at h
        cases htail : strict (index + (encodeChar (Char.ofNat n)).length) (segments rest) with
        | error flaw =>
          rw [htail] at h
          cases h
        | ok read =>
          rw [htail] at h
          obtain ⟨rfl, rfl⟩ := List.cons.inj (Except.ok.inj h)
          rw [List.flatMap_cons, hspells.encodeChar_eq, ih htail]
      | invalid size => cases h
      | incomplete => cases h

/-- Decoding accepts just the encodings of texts. -/
theorem decode_eq_ok_iff {data : Bytes} {text : String} :
    decode data = .ok text ↔ encode text = data := by
  constructor
  · intro h
    rw [decode] at h
    cases hstrict : strict 0 (segments data) with
    | error flaw =>
      rw [hstrict] at h
      cases h
    | ok chars =>
      rw [hstrict] at h
      obtain rfl := Except.ok.inj h
      rw [encode, String.toList_ofList]
      exact flatMap_of_strict hstrict
  · rintro rfl
    rw [decode, encode, segments_flatMap, strict_map]
    exact congrArg Except.ok String.ofList_toList

theorem decodeLossy_encode (text : String) : decodeLossy (encode text) = text := by
  rw [decodeLossy, encode, segments_flatMap, List.map_map]
  exact (congrArg String.ofList (List.map_id _)).trans String.ofList_toList

/-- Only the character with the code point zero has a zero at the end of its encoding. -/
theorem encodeChar_getLast {x : Char} (h : x ≠ Char.ofNat 0) :
    ∃ front b, encodeChar x = front ++ [b] ∧ b ≠ 0 := by
  have hpos : x.toNat ≠ 0 := by
    intro hzero
    exact h (by rw [← Char.ofNat_toNat x, hzero])
  have hne {n : Nat} (hn : n % 256 ≠ 0) : UInt8.ofNat n ≠ 0 := by
    intro heq
    exact hn (by simpa using congrArg UInt8.toNat heq)
  rw [encodeChar]
  split
  · exact ⟨[], _, rfl, hne (by omega)⟩
  split
  · exact ⟨[_], _, rfl, hne (by omega)⟩
  split
  · exact ⟨[_, _], _, rfl, hne (by omega)⟩
  · exact ⟨[_, _, _], _, rfl, hne (by omega)⟩

end RecordLog.Text.Utf8
