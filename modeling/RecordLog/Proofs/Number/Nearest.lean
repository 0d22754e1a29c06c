import RecordLog.Proofs.Number.DecimalRounding
import RecordLog.Proofs.Number.Order

/-!
# The nearest number of a format

Rounding is laid down on magnitudes, to which the sign is added. For numbers with their signs this
means that the result is the nearest of all finite numbers of the format, and that the last digit
of its significand is even if another one is as near. A number that comes from a smaller format is
brought back to it unchanged.
-/

namespace RecordLog.Number

namespace Format

variable (f : Format)

/-- The digits of a finite magnitude, as a whole number of the steps of its binade. -/
def significand (rank : Nat) : Nat :=
  if rank < f.binade then rank else f.binade + rank % f.binade

/-- A rank and the significand of its magnitude have the same last digit. -/
theorem significand_mod_two (rank : Nat) : f.significand rank % 2 = rank % 2 := by
  have hdiv := Nat.mod_add_div rank f.binade
  have hparity := f.mul_binade_mod_two (rank / f.binade) (rank % f.binade)
  have heven : f.binade % 2 = 0 := by rw [two_mul_half_binade, Nat.mul_mod_right]
  rw [Nat.mul_comm, hdiv] at hparity
  unfold significand
  split <;> omega

theorem magnitude_nonneg (rank : Nat) : 0 ≤ f.magnitude rank := by
  unfold magnitude
  positivity

end Format

namespace Binary

variable {f g : Format}

/-- The value of a finite number. -/
def value (x : Binary f) : ℚ :=
  if x.negative then -f.magnitude x.rank else f.magnitude x.rank

/-- Whether a number is the nearest one of its format to a quotient. -/
structure IsNearest (y : Binary f) (q : ℚ) : Prop where
  finite : y.isFinite = true
  nearest : ∀ z : Binary f, z.isFinite = true → |q - y.value| ≤ |q - z.value|
  even : ∀ z : Binary f, z.isFinite = true → z.value ≠ y.value →
    |q - y.value| = |q - z.value| → f.significand y.rank % 2 = 0

theorem abs_value (x : Binary f) : |x.value| = f.magnitude x.rank := by
  have hpos := f.magnitude_nonneg x.rank
  unfold value
  split
  · rw [abs_neg, abs_of_nonneg hpos]
  · exact abs_of_nonneg hpos

/-- The distance to a number with the same sign is that of the magnitudes, and to one with the other
sign it is no less. -/
theorem abs_sub_magnitude_le {q : ℚ} (hq : 0 ≤ q) (negative : Bool) (z : Binary f) :
    |q - f.magnitude z.rank| ≤ |(if negative then -q else q) - z.value| := by
  have hpos := f.magnitude_nonneg z.rank
  have hapart : |q - f.magnitude z.rank| ≤ q + f.magnitude z.rank :=
    abs_le.mpr ⟨by linarith, by linarith⟩
  unfold value
  cases negative <;> cases z.negative <;> simp only [Bool.false_eq_true, if_true, if_false]
  · exact le_rfl
  · rw [sub_neg_eq_add]
    exact hapart.trans (le_abs_self _)
  · rw [← neg_add', abs_neg]
    exact hapart.trans (le_abs_self _)
  · rw [neg_sub_neg, abs_sub_comm]

theorem abs_sub_value_of_sign {q : ℚ} {negative : Bool} {y : Binary f}
    (hsign : y.negative = negative) :
    |(if negative then -q else q) - y.value| = |q - f.magnitude y.rank| := by
  unfold value
  cases negative <;> simp only [hsign, Bool.false_eq_true, if_true, if_false]
  rw [neg_sub_neg, abs_sub_comm]

/-- The number with the other sign is as near only if both are zero. -/
theorem value_eq_of_rank_eq {q : ℚ} {y z : Binary f} (hround : f.RoundsTo |q| y.rank)
    (hrank : z.rank = y.rank) (heq : |q - y.value| = |q - z.value|) : z.value = y.value := by
  have hvalue : |z.value| = |y.value| := by rw [abs_value, abs_value, hrank]
  rcases abs_eq_abs.mp hvalue with hsame | hother
  · exact hsame
  rw [hother, sub_neg_eq_add] at heq
  rcases abs_eq_abs.mp heq with hzero | hzero
  · linarith
  · have hq : q = 0 := by linarith
    have hnear := hround.nearest 0 (Nat.zero_le _)
    rw [hq, abs_zero, Format.magnitude_zero, sub_zero, abs_zero, zero_sub, abs_neg, abs_nonpos_iff,
      ← abs_value, abs_eq_zero] at hnear
    rw [hother, hnear, neg_zero]

/-- What a magnitude is rounded to is the nearest number also among those with signs. -/
theorem isNearest_of_roundsTo {q : ℚ} {y : Binary f} (hround : f.RoundsTo |q| y.rank)
    (hfinite : y.isFinite = true) (hsign : q = if y.negative then -|q| else |q|) :
    y.IsNearest q := by
  have hfirst : |q - y.value| = abs (|q| - f.magnitude y.rank) := by
    conv_lhs => rw [hsign]
    exact abs_sub_value_of_sign rfl
  have hother (z : Binary f) : abs (|q| - f.magnitude z.rank) ≤ |q - z.value| := by
    conv_rhs => rw [hsign]
    exact abs_sub_magnitude_le (abs_nonneg q) _ z
  refine ⟨hfinite, ?_, ?_⟩
  · intro z hz
    have hrank : z.rank ≤ f.infinity := Nat.le_of_lt (of_decide_eq_true hz)
    rw [hfirst]
    exact (hround.nearest z.rank hrank).trans (hother z)
  · intro z hz hne heq
    have hrank : z.rank ≤ f.infinity := Nat.le_of_lt (of_decide_eq_true hz)
    have hmagnitude : z.rank ≠ y.rank := fun h => hne (value_eq_of_rank_eq hround h heq)
    rw [f.significand_mod_two]
    apply hround.even z.rank hrank hmagnitude
    apply le_antisymm (hround.nearest z.rank hrank)
    rw [← hfirst, heq]
    exact hother z

/-- A finite number that is rounded to a finite one is rounded to the nearest. -/
theorem IsRounding.isNearest {x : Binary f} {y : Binary g} (h : y.IsRounding x)
    (hx : x.isFinite = true) (hy : y.isFinite = true) : y.IsNearest x.value := by
  have hround := h.finite hx
  rw [← x.abs_value] at hround
  apply isNearest_of_roundsTo hround hy
  rw [h.sign (isNaN_isInfinite_of_isFinite hx).1, abs_value]
  rfl

/-- A number is brought back from the larger format. -/
theorem IsRounding.eq_of_isWidening {x z : Binary f} {y : Binary g} (hback : z.IsRounding y)
    (hwide : y.IsWidening x) (hnan : x.isNaN = false) : z = x := by
  have hle : x.rank ≤ f.infinity := Nat.le_of_not_lt (of_decide_eq_false hnan)
  rcases Nat.lt_or_eq_of_le hle with hfinite | hinfinite
  · obtain ⟨hyfinite, hvalue⟩ := hwide.finite (decide_eq_true hfinite)
    have hynan := (isNaN_isInfinite_of_isFinite hyfinite).1
    apply ext
    · rw [hback.sign hynan, hwide.sign hnan]
    · exact (hback.finite hyfinite).eq_of_magnitude_eq hle hvalue.symm
  · have hy := hwide.infinite (decide_eq_true hinfinite)
    have hz : z.rank = f.infinity := of_decide_eq_true (hback.infinite hy)
    apply ext
    · rw [hback.sign (isNaN_of_isInfinite hy), hwide.sign hnan]
    · rw [hz, hinfinite]

end Binary

end RecordLog.Number
