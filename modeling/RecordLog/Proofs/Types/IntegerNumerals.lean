import RecordLog.Proofs.Number.Canonical
import RecordLog.Proofs.Types.Written

/-!
# Numerals in columns of integers

A text is read by a column of integers just if it is, without the blanks around it, a numeral of a
number in the range of the column's kind, however many digits it has. What is refused for its size
is told apart from what is refused for its form. The other direction writes the canonical numeral
of the number in a field, which is read back as that number.
-/

namespace RecordLog

namespace Number

theorem IsSigned.negative_iff {s : List Char} {negative : Bool} {n : Int}
    (h : IsSigned s negative n) : negative = true ↔ s.head? = some '-' := by
  obtain ⟨hsign, hdigits, hne⟩ := h
  obtain ⟨c, rest, rfl, hc⟩ := hdigits.exists_cons hne
  have hminus := (ne_sign_of_isDigit hc).2
  cases hsign <;> simp [hminus]

/-- The sign of a numeral is that of its number, or the number is zero. -/
theorem IsSigned.negative_eq {s : List Char} {negative : Bool} {n : Int}
    (h : IsSigned s negative n) (hn : n ≠ 0) : negative = decide (n < 0) := by
  obtain @⟨sign, digits, negative, -, -, -⟩ := h
  cases negative with
  | false => exact (decide_eq_false (Int.not_lt.mpr (Int.natCast_nonneg _))).symm
  | true =>
    rw [if_pos rfl] at hn ⊢
    exact (decide_eq_true (by omega)).symm

end Number

open Number DataType

namespace IntKind

variable {k : IntKind} {s : String} {n : Int} {field : Bytes}

/-- Whether characters are a numeral of an integer, as a kind has them: digits behind a sign that
may be left out, and that is a minus sign only if the kind is signed. -/
def IsNumeral (k : IntKind) (s : List Char) (n : Int) : Prop :=
  ∃ negative, IsSigned s negative n ∧ (negative = true → k.isSigned = true)

theorem low_lt_zero_iff (k : IntKind) : k.low < 0 ↔ k.isSigned = true := by
  cases k <;> decide

theorem readNumber_eq_ok_iff {number : k.Number} :
    readNumber k s = .ok number ↔ k.IsNumeral s.toList number.val := by
  have hread := readInteger_eq_ok_iff k.holds_zero (s := s.toList)
    (m := ⟨number.val, number.holds⟩)
  rw [k.low_lt_zero_iff] at hread
  rw [IsNumeral, ← hread, readNumber]
  split
  · next m hm =>
    rw [hm]
    constructor
    · intro h
      obtain rfl := Except.ok.inj h
      rfl
    · intro h
      obtain rfl := Except.ok.inj h
      rfl
  · next flaw hflaw => simp [hflaw]

/-- A text that is no numeral of a number of the kind is refused, and shown without blanks. -/
theorem exists_readNumber_eq_error (h : ¬ ∃ number : k.Number, k.IsNumeral s.toList number.val) :
    ∃ flaw, readNumber k s = .error (.notInteger s (.integer k) flaw) := by
  cases hread : readNumber k s with
  | ok number => exact absurd ⟨number, readNumber_eq_ok_iff.mp hread⟩ h
  | error cause =>
    unfold readNumber at hread
    split at hread
    · cases hread
    · next flaw _ => exact ⟨flaw, by rw [← hread]⟩

/-- A numeral of a number that is not in the range of the kind is refused for the end of the range
that the number lies behind. -/
theorem readNumber_of_not_holds (h : k.IsNumeral s.toList n) (hrange : ¬ k.Holds n) :
    readNumber k s =
      .error (.notInteger s (.integer k) (if n < 0 then .tooSmall else .tooLarge)) := by
  obtain ⟨negative, hsigned, hminus⟩ := h
  have hzero : n ≠ 0 := by
    rintro rfl
    exact hrange k.holds_zero
  have hread := readInteger_eq_error k.holds_zero hsigned
    (fun hnegative => k.low_lt_zero_iff.mpr (hminus hnegative)) hrange
  rw [readNumber, hread, hsigned.negative_eq hzero]
  simp only [decide_eq_true_eq]

theorem readValue_eq (k : IntKind) (s : String) :
    (DataType.integer k).readValue s = (readNumber k (Text.trim s)).map (.integer k) := rfl

theorem readValue_eq_ok_iff {v : Value} :
    (DataType.integer k).readValue s = .ok v ↔
      ∃ number : k.Number, v = .integer k number ∧
        k.IsNumeral (Text.trim s).toList number.val := by
  simp only [← readNumber_eq_ok_iff, readValue_eq]
  cases readNumber k (Text.trim s) <;> simp [Except.map, eq_comm]

/-- Any bytes of the right number are written as the canonical numeral of the number that they
are unpacked as, which is read back. -/
theorem exists_writeValue (h : field.length = (DataType.integer k).size) :
    ∃ (number : k.Number) (text : String),
      (DataType.integer k).unpack field = .ok (.integer k number) ∧
      (DataType.integer k).pack (.integer k number) = .ok field ∧
      (DataType.integer k).writeValue field = .ok text ∧
      (∀ s, IsCanonical s number.val ↔ s = text.toList) ∧
      (DataType.integer k).readValue text = .ok (.integer k number) := by
  have hunpack : (DataType.integer k).unpack field = .ok (.integer k (.ofBytes k field)) := if_pos h
  refine ⟨_, _, hunpack, pack_of_unpack (by simp) (by simp) h hunpack,
    writeValue_of_unpack (by simp) hunpack, ?_, readValue_integer _ _ rfl⟩
  intro s
  rw [Value.text, String.toList_ofList]
  exact isCanonical_iff

/-- Texts of integers, both ways. A text is read just if it is a numeral of a number in the range of
the kind, as that number; any other is refused, and a numeral of a number out of the range for the
end of the range that the number lies behind. A field is written as the only canonical numeral of
its number, and read back from it. -/
theorem reads_numerals (k : IntKind) :
    (∀ s v, (DataType.integer k).readValue s = .ok v ↔
      ∃ number : k.Number, v = .integer k number ∧
        k.IsNumeral (Text.trim s).toList number.val) ∧
    (∀ s, (¬ ∃ number : k.Number, k.IsNumeral (Text.trim s).toList number.val) →
      ∃ flaw, (DataType.integer k).readValue s =
        .error (.notInteger (Text.trim s) (.integer k) flaw)) ∧
    (∀ s n, k.IsNumeral (Text.trim s).toList n → ¬ k.Holds n →
      (DataType.integer k).readValue s = .error (.notInteger (Text.trim s) (.integer k)
        (if n < 0 then .tooSmall else .tooLarge))) ∧
    ∀ field, field.length = (DataType.integer k).size →
      ∃ (number : k.Number) (text : String),
        (DataType.integer k).unpack field = .ok (.integer k number) ∧
        (DataType.integer k).pack (.integer k number) = .ok field ∧
        (DataType.integer k).writeValue field = .ok text ∧
        (∀ s, IsCanonical s number.val ↔ s = text.toList) ∧
        (DataType.integer k).readValue text = .ok (.integer k number) := by
  refine ⟨fun s v => readValue_eq_ok_iff, ?_, ?_, fun field => exists_writeValue⟩
  · intro s h
    obtain ⟨flaw, hflaw⟩ := exists_readNumber_eq_error h
    exact ⟨flaw, by rw [readValue_eq, hflaw]; rfl⟩
  · intro s n hnumeral hrange
    rw [readValue_eq, readNumber_of_not_holds hnumeral hrange]
    rfl

/-- The least number of eight bits, with zeros and blanks around it, and the one below it; a minus
sign at zero, which no unsigned kind has; and the field of the least number. -/
theorem reads_numerals_at_the_ends :
    let least : IntKind.char.Number := ⟨-128, by decide⟩
    (DataType.integer .char).readValue "\u2003-000128\n" = .ok (.integer .char least) ∧
    (IntKind.char.IsNumeral (Text.trim "-129").toList (-129) ∧ ¬ IntKind.char.Holds (-129) ∧
      (DataType.integer .char).readValue "-129" =
        .error (.notInteger "-129" (.integer .char) .tooSmall)) ∧
    ((¬ ∃ number : IntKind.uchar.Number,
        IntKind.uchar.IsNumeral (Text.trim "-0").toList number.val) ∧
      ∃ flaw, (DataType.integer .uchar).readValue "-0" =
        .error (.notInteger "-0" (.integer .uchar) flaw)) ∧
    ∃ text, (DataType.integer .char).writeValue [128] = .ok text ∧
      IsCanonical text.toList (-128) ∧
      (DataType.integer .char).readValue text = .ok (.integer .char least) := by
  intro least
  obtain ⟨hreads, -, hpast, hwrites⟩ := reads_numerals .char
  have hdash : Text.trim "-129" = "-129" := Text.trim_name rfl
  have hzero : Text.trim "-0" = "-0" := Text.trim_name rfl
  have hbelow : IntKind.char.IsNumeral (Text.trim "-129").toList (-129) := by
    have hdigits : Digits ['1', '2', '9'] := by decide
    rw [hdash]
    exact ⟨true, .mk .minus hdigits (by simp), fun _ => rfl⟩
  have hnone : ¬ ∃ number : IntKind.uchar.Number,
      IntKind.uchar.IsNumeral (Text.trim "-0").toList number.val := by
    rintro ⟨number, negative, hsigned, hminus⟩
    have hnegative := hsigned.negative_iff.mpr (by rw [hzero]; rfl)
    exact Bool.false_ne_true (hminus hnegative)
  refine ⟨?_, ⟨hbelow, by decide, ?_⟩, ⟨hnone, ?_⟩, ?_⟩
  · have htrim : Text.trim "\u2003-000128\n" = "-000128" := by decide
    have hdigits : Digits ['0', '0', '0', '1', '2', '8'] := by decide
    refine (hreads _ _).mpr ⟨least, rfl, ?_⟩
    rw [htrim]
    exact ⟨true, .mk .minus hdigits (by simp), fun _ => rfl⟩
  · have hrefused := hpast _ _ hbelow (by decide)
    rwa [hdash] at hrefused
  · have hrefused := (reads_numerals .uchar).2.1 _ hnone
    rwa [hzero] at hrefused
  · obtain ⟨number, text, hunpack, -, hwrite, hcanonical, hread⟩ := hwrites [128] rfl
    have hunpack' : (DataType.integer .char).unpack [128] = .ok (.integer .char least) := by decide
    obtain rfl : number = least := by
      cases hunpack.symm.trans hunpack'
      rfl
    exact ⟨text, hwrite, (hcanonical _).mpr rfl, hread⟩

end IntKind

end RecordLog
