import RecordLog.Proofs.Types.IntegerTexts

/-!
# Integers in order

An integer is rounded to 64 bits by a column of floating-point numbers, and from there to 32 bits
if the column has no more. Each rounding keeps the order of numbers, those below zero included, and
leaves alone what has room in the significand. So columns of integers may be exchanged for columns
of floating-point numbers wherever only the order matters, and integers that are not large come
back as they were.
-/

namespace RecordLog

namespace Number.Binary

variable {f g : Format} {p q : ℚ} {x y : Binary f}

/-- Whether a number is what a quotient is rounded to. A zero may have either sign. -/
structure IsRoundingOf (x : Binary f) (q : ℚ) : Prop where
  sign : q = if x.negative then -|q| else |q|
  magnitude : f.RoundsTo |q| x.rank

theorem IsRoundingOfInt.isRoundingOf {n : Int} (h : x.IsRoundingOfInt n) : x.IsRoundingOf n := by
  refine ⟨?_, h.magnitude⟩
  rw [h.sign]
  by_cases hn : n < 0
  · have hcast : (n : ℚ) < 0 := by exact_mod_cast hn
    rw [if_pos (decide_eq_true hn), abs_of_neg hcast, neg_neg]
  · have hcast : (0 : ℚ) ≤ n := by exact_mod_cast Int.not_lt.mp hn
    rw [if_neg (by simpa using hn), abs_of_nonneg hcast]

theorem IsRounding.isRoundingOf {y : Binary g} (h : y.IsRounding x) (hfinite : x.isFinite = true) :
    y.IsRoundingOf x.value := by
  refine ⟨?_, ?_⟩
  · rw [h.sign (isNaN_isInfinite_of_isFinite hfinite).1, abs_value]
    rfl
  · rw [abs_value]
    exact h.finite hfinite

/-- Rounding keeps the order of numbers, on both sides of zero. -/
theorem IsRoundingOf.mono (hx : x.IsRoundingOf p) (hy : y.IsRoundingOf q) (hle : p ≤ q) :
    x.value ≤ y.value := by
  have hfirst := f.magnitude_nonneg x.rank
  have hsecond := f.magnitude_nonneg y.rank
  have hrising {a b : ℚ} {i j : Nat} (ha : f.RoundsTo a i) (hb : f.RoundsTo b j) (hab : a ≤ b) :
      f.magnitude i ≤ f.magnitude j := f.magnitude_strictMono.monotone (ha.mono hb hab)
  have hp := hx.sign
  have hq := hy.sign
  unfold value
  cases hnegative : x.negative <;> cases hnegative' : y.negative <;>
    simp only [hnegative, hnegative', Bool.false_eq_true, if_true, if_false] at hp hq ⊢
  · exact hrising hx.magnitude hy.magnitude (by linarith)
  · -- A number that is not below zero is not in front of one that is not above zero.
    have hzero : |p| ≤ 0 ∧ |q| ≤ 0 := by
      have := abs_nonneg p
      have := abs_nonneg q
      constructor <;> linarith
    have horigin : f.RoundsTo 0 0 := by
      have hmagnitude := Format.roundsTo_magnitude (f := f) (Nat.zero_le _)
      rwa [Format.magnitude_zero] at hmagnitude
    have hlow := hrising hx.magnitude horigin hzero.1
    have hhigh := hrising hy.magnitude horigin hzero.2
    rw [Format.magnitude_zero] at hlow hhigh
    linarith
  · linarith
  · exact neg_le_neg (hrising hy.magnitude hx.magnitude (by linarith))

/-- A number that the format holds is not changed. -/
theorem IsRoundingOf.value_eq (h : x.IsRoundingOf q) {rank : Nat} (hrank : rank ≤ f.infinity)
    (hq : f.magnitude rank = |q|) : x.value = q := by
  rw [h.sign, value, h.magnitude.eq_of_magnitude_eq hrank hq, hq]

/-- A whole number that has no more bits than the format is not changed. -/
theorem IsRoundingOf.value_eq_intCast {n : Int} (h : x.IsRoundingOf n)
    (hn : n.natAbs ≤ 2 ^ f.precision) (hroom : f.precision ≤ 2 ^ (f.exponentBits - 1)) :
    x.value = n := by
  obtain ⟨rank, hrank, hvalue⟩ := f.exists_magnitude_eq_natCast (e := 0) hn hroom
  apply h.value_eq hrank
  rw [hvalue, pow_zero, mul_one, Nat.cast_natAbs, Int.cast_abs]

end Number.Binary

open Number DataType

namespace FloatKind

variable {t : FloatKind} {k l : IntKind} {m n : Int} {x y : Binary t.format}

/-- The largest number up to which all integers are numbers of the type. -/
def exactLimit : FloatKind → Nat
  | single => 2 ^ 24
  | double => 2 ^ 53

/-- Whether a number is what an integer is rounded to on its way into a column. -/
def Rounds : (t : FloatKind) → Int → Binary t.format → Prop
  | single, n, x =>
    ∃ wide : Double, wide.IsRoundingOfInt n ∧ wide.isFinite = true ∧ x.IsRounding wide
  | double, n, x => x.IsRoundingOfInt n

theorem Rounds.mono (hx : t.Rounds m x) (hy : t.Rounds n y) (hle : m ≤ n) : x.value ≤ y.value := by
  have hcast : (m : ℚ) ≤ n := by exact_mod_cast hle
  cases t with
  | double =>
    have hx : x.IsRoundingOfInt m := hx
    exact hx.isRoundingOf.mono (Binary.IsRoundingOfInt.isRoundingOf hy) hcast
  | single =>
    obtain ⟨first, hfirst, hfinite, hx⟩ := hx
    obtain ⟨second, hsecond, hfinite', hy⟩ := hy
    have hwide := hfirst.isRoundingOf.mono hsecond.isRoundingOf hcast
    exact (hx.isRoundingOf hfinite).mono (hy.isRoundingOf hfinite') hwide

theorem Rounds.negative_eq (hx : t.Rounds n x) : x.negative = decide (n < 0) := by
  cases t with
  | double => exact hx.sign
  | single =>
    obtain ⟨wide, hwide, hfinite, hx⟩ := hx
    rw [hx.sign (Binary.isNaN_isInfinite_of_isFinite hfinite).1, hwide.sign]

theorem Rounds.value_eq (hx : t.Rounds n x) (hn : n.natAbs ≤ t.exactLimit) : x.value = n := by
  cases t with
  | double => exact (Binary.IsRoundingOfInt.isRoundingOf hx).value_eq_intCast hn (by decide)
  | single =>
    obtain ⟨wide, hwide, hfinite, hx⟩ := hx
    have hroom : n.natAbs ≤ 2 ^ 53 := hn.trans (by decide)
    have hvalue := hwide.isRoundingOf.value_eq_intCast hroom (by decide)
    have hround := hx.isRoundingOf hfinite
    rw [hvalue] at hround
    exact hround.value_eq_intCast hn (by decide)

/-- An integer of any kind is taken by both types, and is finite there. -/
theorem exists_rounds (t : FloatKind) (n : k.Number) :
    ∃ field x, t.type.pack (.integer k n) = .ok field ∧ t.type.unpack field = .ok (t.value x) ∧
      x.isFinite = true ∧ t.Rounds n.val x := by
  have hfinite {wide : Double} (hwide : wide.IsRoundingOfInt n.val) : wide.isFinite = true := by
    rw [hwide.unique (Binary.ofInt_isRounding .double n.val)]
    exact isFinite_ofInt n
  cases t with
  | single =>
    have hpack := pack_float_integer n
    obtain ⟨-, v, hunpack, hstores⟩ := unpack_pack hpack
    cases hstores with
    | narrowedInteger hwide hnarrow hroom =>
      exact ⟨_, _, hpack, hunpack, hroom (hfinite hwide), _, hwide, hfinite hwide, hnarrow⟩
  | double =>
    have hpack : DataType.double.pack (.integer k n) = .ok _ := rfl
    obtain ⟨-, v, hunpack, hstores⟩ := unpack_pack hpack
    cases hstores with
    | roundedInteger hround => exact ⟨_, _, hpack, hunpack, hfinite hround, hround⟩

/-- The integers next to zero are stored as they are, so no other one is taken across zero. -/
theorem Rounds.side_eq (hx : t.Rounds n x) :
    (x.value < 0 ↔ n < 0) ∧ (0 < x.value ↔ 0 < n) := by
  have hnear (j : Int) (hj : IntKind.char.Holds j) (hone : j.natAbs ≤ 1) :
      ∃ y : Binary t.format, t.Rounds j y ∧ y.value = j := by
    obtain ⟨-, y, -, -, -, hy⟩ := exists_rounds t ⟨j, hj⟩
    exact ⟨y, hy, hy.value_eq (hone.trans (by cases t <;> decide))⟩
  obtain ⟨low, hlow, hlowValue⟩ := hnear (-1) (by decide) (by decide)
  obtain ⟨high, hhigh, hhighValue⟩ := hnear 1 (by decide) (by decide)
  rcases Int.lt_trichotomy n 0 with hn | rfl | hn
  · have hle := hx.mono hlow (by omega)
    rw [hlowValue, Int.cast_neg, Int.cast_one] at hle
    exact ⟨iff_of_true (by linarith) hn, iff_of_false (by linarith) (by omega)⟩
  · have hzero : x.value = 0 := by exact_mod_cast hx.value_eq (Nat.zero_le _)
    simp [hzero]
  · have hge := hhigh.mono hx (by omega)
    rw [hhighValue, Int.cast_one] at hge
    exact ⟨iff_of_false (by linarith) (by omega), iff_of_true (by linarith) hn⟩

/-- What is promised of the number that a column gives back for an integer: it is finite, it is on
the same side of zero, with the sign of the integer, and it is the integer itself unless that is
large. -/
structure Keeps (t : FloatKind) (n : Int) (x : Binary t.format) : Prop where
  finite : x.isFinite = true
  sign : x.negative = decide (n < 0)
  side : (x.value < 0 ↔ n < 0) ∧ (0 < x.value ↔ 0 < n)
  exact : n.natAbs ≤ t.exactLimit → x.value = n

/-- Integers of any kinds are taken by both floating-point types, and come back from there as finite
numbers in the same order. None of them changes its sign, and those of up to 24 bits, or up to 53,
come back as they were. -/
theorem keeps_order (t : FloatKind) (m : k.Number) (n : l.Number) (hle : m.val ≤ n.val) :
    ∃ first second x y,
      t.type.pack (.integer k m) = .ok first ∧ t.type.unpack first = .ok (t.value x) ∧
      t.type.pack (.integer l n) = .ok second ∧ t.type.unpack second = .ok (t.value y) ∧
      t.Keeps m.val x ∧ t.Keeps n.val y ∧ x.value ≤ y.value := by
  obtain ⟨first, x, hpack, hunpack, hfinite, hx⟩ := t.exists_rounds m
  obtain ⟨second, y, hpack', hunpack', hfinite', hy⟩ := t.exists_rounds n
  refine ⟨first, second, x, y, hpack, hunpack, hpack', hunpack', ?_, ?_, hx.mono hy hle⟩
  · exact ⟨hfinite, hx.negative_eq, hx.side_eq, hx.value_eq⟩
  · exact ⟨hfinite', hy.negative_eq, hy.side_eq, hy.value_eq⟩

/-- The last integer up to which all are numbers of 32 bits, and the one behind it; and the ends of
all kinds, which are far from infinity. -/
theorem keeps_order_of_large_integers :
    let limit : IntKind.uint.Number := ⟨16777216, by decide⟩
    let behind : IntKind.long.Number := ⟨16777217, by decide⟩
    let least : IntKind.long.Number := ⟨-9223372036854775808, by decide⟩
    let last : IntKind.ulong.Number := ⟨18446744073709551615, by decide⟩
    (limit.val ≤ behind.val ∧ ∃ first second, ∃ x y : Single,
      DataType.float.pack (.integer .uint limit) = .ok first ∧
      DataType.float.unpack first = .ok (.float x) ∧
      DataType.float.pack (.integer .long behind) = .ok second ∧
      DataType.float.unpack second = .ok (.float y) ∧ x.value = 16777216 ∧ x.value ≤ y.value) ∧
    (least.val ≤ last.val ∧ ∃ first second, ∃ x y : Double,
      DataType.double.pack (.integer .long least) = .ok first ∧
      DataType.double.unpack first = .ok (.double x) ∧
      DataType.double.pack (.integer .ulong last) = .ok second ∧
      DataType.double.unpack second = .ok (.double y) ∧
      x.isFinite = true ∧ y.isFinite = true ∧ x.value < 0 ∧ 0 < y.value) := by
  intro limit behind least last
  have hnext : limit.val ≤ behind.val := by decide
  have hends : least.val ≤ last.val := by decide
  refine ⟨⟨hnext, ?_⟩, hends, ?_⟩
  · obtain ⟨first, second, x, y, hpack, hunpack, hpack', hunpack', hx, -, hle⟩ :=
      keeps_order single limit behind hnext
    refine ⟨first, second, x, y, hpack, hunpack, hpack', hunpack', ?_, hle⟩
    exact_mod_cast hx.exact (by decide)
  · obtain ⟨first, second, x, y, hpack, hunpack, hpack', hunpack', hx, hy, -⟩ :=
      keeps_order double least last hends
    exact ⟨first, second, x, y, hpack, hunpack, hpack', hunpack', hx.finite, hy.finite,
      hx.side.1.mpr (by decide), hy.side.2.mpr (by decide)⟩

end FloatKind

end RecordLog
