import RecordLog.Proofs.Number.Readings
import RecordLog.Proofs.Number.Shortest
import RecordLog.Proofs.Types.Written

/-!
# Texts in columns of floating-point numbers

A text is read by both floating-point types as one rounding of the decimal number that it is, so
whatever a number is written as, the bits of the number are read back. The size of a number is not
looked at: one that is past the largest of its type is read as infinity.
-/

namespace RecordLog

open Number DataType

/-- The two floating-point types. -/
inductive FloatKind where
  | single
  | double
  deriving DecidableEq

namespace FloatKind

def format : FloatKind → Format
  | single => .single
  | double => .double

def type : FloatKind → DataType
  | single => .float
  | double => .double

def value : (k : FloatKind) → Binary k.format → Value
  | single, x => .float x
  | double, x => .double x

/-- The least number that is rounded to infinity. -/
def bound : FloatKind → ℚ
  | single => 2 ^ 128 - 2 ^ 103
  | double => 2 ^ 1024 - 2 ^ 970

variable {k : FloatKind} {s : String} {v : Value} {x : Binary k.format} {field : Bytes}

theorem overflow_eq_bound (k : FloatKind) : k.format.overflow = k.bound := by
  cases k with
  | single => exact Format.overflow_single
  | double => exact Format.overflow_double

theorem value_injective (k : FloatKind) : Function.Injective k.value := by
  intro x y h
  cases k with
  | single => exact Value.float.inj h
  | double => exact Value.double.inj h

/-- A text is read as the number of the type's format that the text stands for. -/
theorem readValue_eq_ok_iff :
    k.type.readValue s = .ok v ↔
      ∃ x, v = k.value x ∧ Binary.read k.format (Text.trim s).toList = .ok x := by
  have hread : k.type.readValue s =
      ((Binary.read k.format (Text.trim s).toList).mapError (.notFloat (Text.trim s) k.type)).map
        k.value := by
    cases k <;> rfl
  rw [hread]
  cases Binary.read k.format (Text.trim s).toList <;> simp [Except.mapError, Except.map, eq_comm]

theorem readValue_value_iff :
    k.type.readValue s = .ok (k.value x) ↔
      Binary.read k.format (Text.trim s).toList = .ok x := by
  rw [readValue_eq_ok_iff]
  constructor
  · rintro ⟨y, hvalue, hread⟩
    rwa [k.value_injective hvalue]
  · intro hread
    exact ⟨x, rfl, hread⟩

/-! ## Decimal numbers of any size -/

/-- A decimal number is read as what it is rounded to. -/
theorem exists_readValue_of_isDecimal {negative : Bool} {q : ℚ}
    (h : IsDecimal (Text.trim s).toList negative q) :
    ∃ x, k.type.readValue s = .ok (k.value x) ∧ x.negative = negative ∧
      k.format.RoundsTo q x.rank := by
  obtain ⟨x, hread, hsign, hround⟩ := Binary.exists_read_of_isDecimal (f := k.format) h
  exact ⟨x, readValue_value_iff.mpr hread, hsign, hround⟩

/-- No decimal number is refused by a floating-point type. One from the middle in front of infinity
on is read as infinity, with its sign, and apart from these only the names of infinity are. -/
theorem readValue_infinite_iff (k : FloatKind) (s : String) :
    (∀ negative q, IsDecimal (Text.trim s).toList negative q →
      ∃ x, k.type.readValue s = .ok (k.value x) ∧ x.negative = negative ∧
        k.format.RoundsTo q x.rank ∧ (x.isInfinite = true ↔ k.bound ≤ q)) ∧
    ∀ x, k.type.readValue s = .ok (k.value x) →
      (x.isInfinite = true ↔ IsInfinity (Text.trim s).toList x.negative ∨
        ∃ q, IsDecimal (Text.trim s).toList x.negative q ∧ k.bound ≤ q) := by
  rw [← overflow_eq_bound]
  constructor
  · intro negative q h
    obtain ⟨x, hread, hsign, hround⟩ := exists_readValue_of_isDecimal h
    refine ⟨x, hread, hsign, hround, ?_⟩
    rw [← hround.eq_infinity_iff]
    exact decide_eq_true_iff
  · intro x h
    exact Binary.isInfinite_iff_of_read (readValue_value_iff.mp h)

/-- A number with an exponent, with a value behind the largest number of 32 bits. -/
theorem isDecimal_of_exponent : IsDecimal "1e39".toList false (10 ^ 39) := by
  have hmantissa : IsMantissa ['1'] (digitsValue ['1']) := .whole (by decide) (by simp)
  have hsigned : IsSigned ['3', '9'] false 39 := .mk .none (by decide) (by simp)
  have hexponent : IsExponent ['e', '3', '9'] 39 := .marked (.inl rfl) hsigned
  have hdecimal := IsDecimal.mk .none (.mk hmantissa hexponent)
  have hvalue : (digitsValue ['1'] * 10 ^ (39 : Int) : ℚ) = 10 ^ 39 := by
    rw [show digitsValue ['1'] = 1 from rfl, Nat.cast_one, one_mul]
    rfl
  rwa [hvalue] at hdecimal

/-- Ten to the power of thirty-nine is read as infinity, by a column of 32 bits. -/
theorem readValue_infinite_iff_of_exponent :
    IsDecimal (Text.trim " 1e39 ").toList false (10 ^ 39) ∧
    ∃ x : Single, DataType.float.readValue " 1e39 " = .ok (.float x) ∧ x.negative = false ∧
      x.isInfinite = true ∧
      (IsInfinity (Text.trim " 1e39 ").toList false ∨
        ∃ q, IsDecimal (Text.trim " 1e39 ").toList false q ∧ 2 ^ 128 - 2 ^ 103 ≤ q) := by
  have htrim : Text.trim " 1e39 " = "1e39" := by decide
  have hdecimal : IsDecimal (Text.trim " 1e39 ").toList false (10 ^ 39) := by
    rw [htrim]
    exact isDecimal_of_exponent
  have hbound : bound single ≤ 10 ^ 39 := by
    norm_num [bound]
  obtain ⟨x, hread, hsign, -, hinfinite⟩ :=
    (readValue_infinite_iff single " 1e39 ").1 false _ hdecimal
  have hwhy := (readValue_infinite_iff single " 1e39 ").2 x hread
  rw [hsign] at hwhy
  have hinf := hinfinite.mpr hbound
  exact ⟨hdecimal, x, hread, hsign, hinf, hwhy.mp hinf⟩

/-- A decimal number behind the largest number of 32 bits is not refused, and not read as a finite
number, although its text is not a name of infinity. -/
theorem readValue_past_bound :
    IsDecimal (Text.trim "1e39").toList false (10 ^ 39) ∧ bound single ≤ 10 ^ 39 ∧
    (¬ ∃ cause, DataType.float.readValue "1e39" = .error cause) ∧
    (¬ ∃ x : Single, DataType.float.readValue "1e39" = .ok (.float x) ∧ x.isFinite = true) ∧
    ∃ x : Single, DataType.float.readValue "1e39" = .ok (.float x) ∧ x.isInfinite = true := by
  have hdecimal : IsDecimal (Text.trim "1e39").toList false (10 ^ 39) := by
    rw [Text.trim_name rfl]
    exact isDecimal_of_exponent
  have hbound : bound single ≤ 10 ^ 39 := by
    norm_num [bound]
  obtain ⟨x, hread, -, hround⟩ := exists_readValue_of_isDecimal (k := single) hdecimal
  have hrank : x.rank = Format.single.infinity :=
    hround.eq_infinity_iff.mpr (by rw [overflow_eq_bound]; exact hbound)
  have hinfinite : x.isInfinite = true := decide_eq_true hrank
  change DataType.float.readValue "1e39" = .ok (.float x) at hread
  refine ⟨hdecimal, hbound, ?_, ?_, x, hread, hinfinite⟩
  · rintro ⟨cause, hrefused⟩
    cases hread.symm.trans hrefused
  · rintro ⟨y, hread', hfinite⟩
    obtain rfl : x = y := single.value_injective (Except.ok.inj (hread.symm.trans hread'))
    have hnot := (Binary.isNaN_isInfinite_of_isFinite hfinite).2
    exact Bool.false_ne_true (hnot.symm.trans hinfinite)

/-! ## Numbers from their own texts -/

theorem writeValue_eq (hlength : field.length = k.type.size) :
    k.type.writeValue field =
      .ok (String.ofList (Binary.ofWord k.format (Bytes.toWord field)).text) := by
  cases k with
  | single => exact writeValue_of_unpack (by simp) (if_pos hlength)
  | double => exact writeValue_of_unpack (by simp) (if_pos hlength)

/-- Whether a decimal number has no more digits than any other one that the type reads as the same
number. -/
def IsShortest (k : FloatKind) (x : Binary k.format) (q : ℚ) : Prop :=
  ∀ s p count, IsDecimal (Text.trim s).toList x.negative p →
    k.type.readValue s = .ok (k.value x) → HasDigits count p → HasDigits count q

theorem exists_isDecimal_text (hfinite : x.isFinite = true) :
    ∃ q, IsDecimal x.text x.negative q ∧ k.IsShortest x q := by
  refine ⟨_, Binary.isDecimal_text hfinite, ?_⟩
  intro s p count hdecimal hread hdigits
  obtain ⟨y, hread', -, hround⟩ := exists_readValue_of_isDecimal (k := k) hdecimal
  obtain rfl : y = x := k.value_injective (Except.ok.inj (hread'.symm.trans hread))
  have hprecision : 2 ^ k.format.precision < 10 ^ (digitLimit - 1) := by
    cases k <;> decide
  exact Format.hasDigits_shortest hprecision (of_decide_eq_true hfinite) hround hdigits

/-- The bits of a number are read back from its text, unless they are those of a NaN: be the number
a zero with or without a sign, one of the smallest, one of the largest or infinity. The text of a
finite number has as few digits as any that is read back, and every decimal number is read by one
rounding to the type. -/
theorem readValue_writeValue (k : FloatKind) :
    (∀ field : Bytes, field.length = k.type.size →
      let x := Binary.ofWord k.format (Bytes.toWord field)
      x.isNaN = false → ∃ text, k.type.writeValue field = .ok text ∧
        k.type.readValue text = .ok (k.value x) ∧ packBinary x = field ∧
        (x.isFinite = true → ∃ q, IsDecimal text.toList x.negative q ∧ k.IsShortest x q)) ∧
    ∀ s negative q, IsDecimal (Text.trim s).toList negative q →
      ∃ x, k.type.readValue s = .ok (k.value x) ∧ x.negative = negative ∧
        k.format.RoundsTo q x.rank := by
  constructor
  · intro field hlength x hnan
    have hread : Binary.read k.format (Text.trim (String.ofList x.text)).toList = .ok x := by
      rw [Text.trim_text, String.toList_ofList]
      exact Binary.read_of_text hnan
    have hfield : packBinary x = field := by
      cases k with
      | single => exact packBinary_ofWord single_words hlength
      | double => exact packBinary_ofWord double_words hlength
    refine ⟨_, writeValue_eq hlength, readValue_value_iff.mpr hread, hfield, ?_⟩
    rw [String.toList_ofList]
    exact exists_isDecimal_text
  · intro s negative q h
    exact exists_readValue_of_isDecimal h

/-- The number of 32 bits next to zero from below, infinity, and a decimal number that is
rounded. -/
theorem readValue_writeValue_at_the_ends :
    let least : Single := ⟨true, 1, by decide⟩
    let last : Double := ⟨false, 0x7FF0000000000000, by decide⟩
    (∃ text, DataType.float.writeValue [1, 0, 0, 128] = .ok text ∧
      DataType.float.readValue text = .ok (.float least) ∧
      ∃ q, IsDecimal text.toList true q ∧ single.IsShortest least q) ∧
    (∃ text, DataType.double.writeValue [0, 0, 0, 0, 0, 0, 240, 127] = .ok text ∧
      DataType.double.readValue text = .ok (.double last)) ∧
    ∃ x : Double, DataType.double.readValue "1e39" = .ok (.double x) ∧
      Format.double.RoundsTo (10 ^ 39) x.rank := by
  intro least last
  have hleast : Binary.ofWord .single (Bytes.toWord [1, 0, 0, 128]) = least := by decide
  have hlast : Binary.ofWord .double (Bytes.toWord [0, 0, 0, 0, 0, 0, 240, 127]) = last := by
    decide
  have hdecimal : IsDecimal (Text.trim "1e39").toList false (10 ^ 39) := by
    rw [Text.trim_name rfl]
    exact isDecimal_of_exponent
  obtain ⟨text, hwrite, hread, -, hshortest⟩ :=
    (readValue_writeValue single).1 [1, 0, 0, 128] rfl (by decide)
  obtain ⟨name, hwriteName, hreadName, -⟩ :=
    (readValue_writeValue double).1 [0, 0, 0, 0, 0, 0, 240, 127] rfl (by decide)
  obtain ⟨x, hreadDecimal, -, hround⟩ := (readValue_writeValue double).2 _ _ _ hdecimal
  refine ⟨⟨text, hwrite, ?_, ?_⟩, ⟨name, hwriteName, ?_⟩, x, hreadDecimal, hround⟩
  · rw [← hleast]
    exact hread
  · rw [← hleast]
    exact hshortest (by decide)
  · rw [← hlast]
    exact hreadName

end FloatKind

end RecordLog
