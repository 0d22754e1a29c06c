import RecordLog.Proofs.Number.DoubleRounding
import RecordLog.Proofs.Types.FloatTexts
import RecordLog.Proofs.Types.Narrowing

/-!
# Integers and their decimal texts

An integer is given to a column as a value or as its decimal text. Integer types and the
floating-point type of 64 bits store the same for both. A column of 32-bit numbers rounds a text
once, but a value twice, by way of 64 bits: so it may store two numbers, though only for an integer
that misleads there.
-/

namespace RecordLog

namespace Number

/-- Whether an integer misleads on the way to 32 bits: its rounding to 64 bits lies in the middle
between two neighbours of 32 bits, and the integer itself beside it, on the side of the odd one. -/
def Misleading (n : Int) : Prop :=
  ∃ x : Double, x.IsRoundingOfInt n ∧
    Format.single.Misleads |(n : ℚ)| (Format.double.magnitude x.rank)

namespace Binary

variable {n : Int}

theorem misleading_iff : Misleading n ↔
    Format.single.Misleads |(n : ℚ)| (Format.double.magnitude (ofInt .double n).rank) := by
  have hround := ofInt_isRounding .double n
  constructor
  · rintro ⟨x, hx, hmisleads⟩
    rwa [hx.unique hround] at hmisleads
  · intro hmisleads
    exact ⟨_, hround, hmisleads⟩

/-- An integer that has room in the significand of 64-bit numbers does not mislead. -/
theorem not_misleading (hn : n.natAbs ≤ 2 ^ 53) : ¬ Misleading n := by
  have hexact := (ofInt_isRounding .double n).magnitude_eq hn (by decide)
  rw [misleading_iff, hexact]
  exact Format.not_misleads_self _ _

/-- The way by 64 bits ends where the direct one ends, unless the integer misleads. -/
theorem convert_ofInt_eq_iff (hfinite : (ofInt .double n).isFinite = true) :
    (ofInt .double n).convert .single = ofInt .single n ↔ ¬ Misleading n := by
  have hfirst := ofInt_isRounding .double n
  have honce := ofInt_isRounding .single n
  have htwice := (ofInt .double n).convert_isRounding .single
  have hsign : ((ofInt .double n).convert .single).negative = (ofInt .single n).negative := by
    rw [htwice.sign (isNaN_isInfinite_of_isFinite hfinite).1, hfirst.sign, honce.sign]
  rw [misleading_iff, ← hfirst.magnitude.twice_eq_once_iff (htwice.finite hfinite) honce.magnitude
    (by decide) (by decide)]
  constructor
  · intro heq
    rw [heq]
  · intro hrank
    exact ext hsign hrank

end Binary

end Number

theorem IntKind.natAbs_le {k : IntKind} (n : k.Number) : n.val.natAbs ≤ 2 ^ 64 := by
  obtain ⟨n, hlow, hhigh⟩ := n
  have hwords : k.words ≤ 2 ^ 64 := by cases k <;> decide
  unfold IntKind.low at hlow
  unfold IntKind.high at hhigh
  split at hlow <;> simp_all <;> omega

namespace DataType

open Number

variable {t : DataType} {k kind : IntKind} {field : Bytes}

/-- Integers of all kinds are far from the ends of the floating-point types. -/
theorem magnitude_ofInt_le (n : k.Number) :
    Format.double.magnitude (Binary.ofInt .double n.val).rank ≤ 2 ^ 64 := by
  have hround := (Binary.ofInt_isRounding .double n.val).magnitude
  obtain ⟨rank, hrank, hvalue⟩ :=
    Format.double.exists_magnitude_eq_natCast (m := 1) (e := 64) (by decide) (by decide)
  rw [Nat.cast_one, one_mul] at hvalue
  have hbound : Format.double.RoundsTo (2 ^ 64) rank := hvalue ▸ Format.roundsTo_magnitude hrank
  have hle : |(n.val : ℚ)| ≤ 2 ^ 64 := by
    rw [← Int.cast_abs, ← Nat.cast_natAbs]
    exact_mod_cast IntKind.natAbs_le n
  rw [← hvalue]
  exact Format.double.magnitude_strictMono.monotone (hround.mono hbound hle)

theorem isFinite_ofInt (n : k.Number) : (Binary.ofInt .double n.val).isFinite = true := by
  apply decide_eq_true
  apply Format.double.magnitude_strictMono.lt_iff_lt.mp
  calc
    Format.double.magnitude (Binary.ofInt .double n.val).rank ≤ 2 ^ 64 := magnitude_ofInt_le n
    _ < 2 ^ 2 ^ 10 := pow_lt_pow_right₀ (by norm_num) (by norm_num)
    _ = Format.double.magnitude Format.double.infinity := Format.double.magnitude_infinity.symm

theorem not_overflows_ofInt (n : k.Number) : ¬ (Binary.ofInt .double n.val).Overflows .single := by
  rw [overflows_single_iff, Binary.abs_value]
  rintro ⟨-, hover⟩
  have hle := hover.trans (magnitude_ofInt_le n)
  norm_num at hle

/-! ## Columns of numbers -/

/-- Whether a type is that of 32-bit numbers, and an integer a misleading one. -/
def Misleads (t : DataType) (n : Int) : Prop := t = .float ∧ Misleading n

def IsNumeric : DataType → Prop
  | .integer _ | .float | .double => True
  | .none | .bool | .string _ => False

theorem read_trim_decimal (f : Format) (n : Int) :
    Binary.read f (Text.trim (String.ofList (decimal n))).toList = .ok (Binary.ofInt f n) := by
  rw [Text.trim_decimal, String.toList_ofList]
  exact Binary.read_decimal f n

theorem readValue_float (n : k.Number) :
    float.readValue (Value.integer k n).text = .ok (.float (.ofInt .single n.val)) :=
  (FloatKind.readValue_value_iff (k := .single)).mpr (read_trim_decimal _ _)

theorem readValue_double (n : k.Number) :
    double.readValue (Value.integer k n).text = .ok (.double (.ofInt .double n.val)) :=
  (FloatKind.readValue_value_iff (k := .double)).mpr (read_trim_decimal _ _)

/-- An integer is packed into a column of 32-bit numbers by way of 64 bits. -/
theorem pack_float_integer (n : k.Number) :
    float.pack (.integer k n) =
      .ok (packBinary ((Binary.ofInt .double n.val).convert .single)) := by
  have hroom := not_overflows_ofInt n
  rw [Binary.overflows_iff, ← Bool.and_eq_true] at hroom
  change packSingle (.integer k n) = _
  rw [packSingle_eq rfl (by simp), if_neg hroom]

theorem packBinary_inj {f : Format} (hsize : 256 ^ f.size = 2 * f.ranks) {x y : Binary f} :
    packBinary x = packBinary y ↔ x = y := by
  constructor
  · intro h
    rw [← ofWord_packBinary hsize x, h, ofWord_packBinary hsize y]
  · rintro rfl
    rfl

theorem pack_integer_eq_ok_iff (n : k.Number) :
    (integer kind).pack (.integer k n) = .ok field ↔
      ∃ m : kind.Number, m.val = n.val ∧ m.toBytes = field := by
  constructor
  · intro h
    simp only [pack, Value.integer?] at h
    split at h
    · next m hm => exact ⟨m, IntKind.val_of_number? hm, Except.ok.inj h⟩
    · cases h
  · rintro ⟨m, hval, rfl⟩
    simp only [pack, Value.integer?, ← hval, IntKind.number?_val]

/-- An integer that a column takes is also taken as its decimal text, and stored alike unless that
misleads. -/
theorem exists_readValue_of_pack (n : k.Number) (h : t.pack (.integer k n) = .ok field) :
    ∃ w stored, t.readValue (Value.integer k n).text = .ok w ∧ t.pack w = .ok stored ∧
      (stored = field ↔ ¬ t.Misleads n.val) := by
  cases t with
  | none => cases h
  | bool => cases h
  | string width => cases h
  | integer kind =>
    obtain ⟨m, hval, rfl⟩ := (pack_integer_eq_ok_iff n).mp h
    have hpack := (pack_integer_eq_ok_iff m).mpr ⟨m, rfl, rfl⟩
    refine ⟨_, _, readValue_integer n m hval, hpack, ?_⟩
    simp [Misleads]
  | float =>
    rw [pack_float_integer] at h
    obtain rfl := Except.ok.inj h
    refine ⟨_, _, readValue_float n, rfl, ?_⟩
    rw [packBinary_inj single_words, eq_comm, Binary.convert_ofInt_eq_iff (isFinite_ofInt n)]
    simp [Misleads]
  | double =>
    obtain rfl := Except.ok.inj h
    refine ⟨_, _, readValue_double n, rfl, ?_⟩
    simp [Misleads]

/-- A column of numbers takes every integer whose decimal text it takes. -/
theorem exists_pack_of_readValue (ht : t.IsNumeric) (n : k.Number) {w : Value}
    (h : t.readValue (Value.integer k n).text = .ok w) :
    ∃ field, t.pack (.integer k n) = .ok field := by
  cases t with
  | none => cases ht
  | bool => cases ht
  | string width => cases ht
  | integer kind =>
    rw [Value.text, readValue, Text.trim_decimal, readNumber, String.toList_ofList] at h
    split at h
    · next m hm =>
      have hval := val_of_readInteger_decimal hm
      exact ⟨_, (pack_integer_eq_ok_iff n).mpr ⟨⟨m.val, m.property⟩, hval, rfl⟩⟩
    · cases h
  | float => exact ⟨_, pack_float_integer n⟩
  | double => exact ⟨_, rfl⟩

end DataType

end RecordLog
