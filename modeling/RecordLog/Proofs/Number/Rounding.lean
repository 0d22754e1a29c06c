import Mathlib.Algebra.Order.Field.Basic
import Mathlib.Data.Rat.Cast.Order
import Mathlib.Tactic.FieldSimp
import Mathlib.Tactic.Linarith
import Mathlib.Tactic.Positivity
import Mathlib.Tactic.Ring
import RecordLog.Number.Binary.Rounding

/-!
# Rounding is to the nearest

What a rounding must do is said on rational numbers: of all magnitudes up to infinity it picks
the nearest one, and of two that are equally near the one with the even rank. Infinity counts
here as the power of two behind the largest finite magnitude. There is no choice left, so this
fixes the result, and a quotient that is a magnitude itself is met exactly.

Ranks rise with their magnitudes, and between two powers of two they rise in equal steps. So a
quotient lies between two ranks that follow each other, and the arithmetic of `nearest` is about
these two alone.
-/

namespace RecordLog.Number

namespace Format

variable (f : Format)

/-! ## The order of ranks -/

theorem two_mul_half_binade : f.binade = 2 * 2 ^ (f.precision - 2) := by
  have hprecision : f.precision - 1 = f.precision - 2 + 1 := by
    have := f.two_le_precision
    omega
  rw [binade, hprecision, Nat.pow_succ, Nat.mul_comm]

theorem two_mul_binade : 2 * f.binade = 2 ^ f.precision := by
  have hprecision : f.precision - 1 + 1 = f.precision :=
    Nat.sub_add_cancel (by have := f.two_le_precision; omega)
  rw [binade, Nat.mul_comm, ← Nat.pow_succ, Nat.succ_eq_add_one, hprecision]

theorem mul_binade_mod_two (e m : Nat) : (m + e * f.binade) % 2 = m % 2 := by
  rw [f.two_mul_half_binade, Nat.mul_left_comm, Nat.add_mul_mod_self_left]

/-- In every binade the ranks count equal steps; at its end this holds for both step sizes. -/
theorem units_step {e m : Nat} (hm : m ≤ 2 * f.binade) (he : e = 0 ∨ f.binade ≤ m) :
    f.units (m + e * f.binade) = m * 2 ^ e := by
  have hpos := f.binade_pos
  rcases Nat.lt_or_ge m f.binade with hlow | hhigh
  · obtain rfl : e = 0 := by omega
    simp [units, hlow]
  · have hge : ¬ m + e * f.binade < f.binade := by omega
    rw [units, if_neg hge, Nat.add_mul_mod_self_right, Nat.add_mul_div_right _ _ hpos]
    rcases Nat.lt_or_eq_of_le hm with hlt | rfl
    · have hdiv : m / f.binade = 1 := Nat.div_eq_of_lt_le (by omega) (by omega)
      have hmod : f.binade + m % f.binade = m := by
        have := Nat.div_add_mod m f.binade
        rw [hdiv] at this
        omega
      rw [hmod, hdiv, Nat.add_sub_cancel_left]
    · rw [Nat.mul_mod_left, Nat.mul_div_cancel _ hpos, Nat.add_zero,
        show 2 + e - 1 = e + 1 by omega, Nat.pow_succ]
      ring

theorem exists_step (rank : Nat) :
    ∃ e m, rank = m + e * f.binade ∧ m < 2 * f.binade ∧ (e = 0 ∨ f.binade ≤ m) := by
  have hpos := f.binade_pos
  rcases Nat.lt_or_ge rank f.binade with hlow | hhigh
  · exact ⟨0, rank, by omega, by omega, .inl rfl⟩
  · have hdiv : 0 < rank / f.binade := Nat.div_pos hhigh hpos
    have hmod := Nat.mod_lt rank hpos
    have hrank := Nat.div_add_mod rank f.binade
    refine ⟨rank / f.binade - 1, f.binade + rank % f.binade, ?_, by omega, .inr (by omega)⟩
    rw [Nat.sub_mul, Nat.one_mul, Nat.mul_comm (rank / f.binade)]
    have : f.binade ≤ f.binade * (rank / f.binade) := Nat.le_mul_of_pos_right _ hdiv
    omega

theorem units_lt_succ (rank : Nat) : f.units rank < f.units (rank + 1) := by
  obtain ⟨e, m, rfl, hm, he⟩ := f.exists_step rank
  have hnext : f.units (m + 1 + e * f.binade) = (m + 1) * 2 ^ e :=
    f.units_step (by omega) (by omega)
  rw [f.units_step hm.le he, show m + e * f.binade + 1 = m + 1 + e * f.binade by omega, hnext]
  exact Nat.mul_lt_mul_of_pos_right (Nat.lt_succ_self m) (Nat.two_pow_pos e)

theorem units_strictMono : StrictMono f.units := strictMono_nat_of_lt_succ f.units_lt_succ

/-- A number of few enough bits, followed by any number of zeros, is the value of a rank. -/
theorem exists_units_eq {m : Nat} (hm : m ≤ 2 * f.binade) (k : Nat) :
    ∃ rank, f.units rank = m * 2 ^ k := by
  induction k generalizing m with
  | zero => exact ⟨m + 0 * f.binade, f.units_step hm (.inl rfl)⟩
  | succ k ih =>
    rcases Nat.lt_or_ge m f.binade with hlow | hhigh
    · obtain ⟨rank, hrank⟩ := ih (m := 2 * m) (by omega)
      exact ⟨rank, by rw [hrank, Nat.pow_succ]; ring⟩
    · exact ⟨m + (k + 1) * f.binade, f.units_step hm (.inr hhigh)⟩

/-! ## What a rounding must do -/

/-- The value of a rank. Infinity has the value that the next finite rank would have. -/
def magnitude (rank : Nat) : ℚ := f.units rank / 2 ^ f.scale

/-- Whether a quotient is rounded to a rank. -/
structure RoundsTo (q : ℚ) (rank : Nat) : Prop where
  le_infinity : rank ≤ f.infinity
  nearest : ∀ other ≤ f.infinity, |q - f.magnitude rank| ≤ |q - f.magnitude other|
  even : ∀ other ≤ f.infinity, other ≠ rank →
    |q - f.magnitude rank| = |q - f.magnitude other| → rank % 2 = 0

theorem magnitude_strictMono : StrictMono f.magnitude := by
  intro a b hab
  have hunits : (f.units a : ℚ) < f.units b := by exact_mod_cast f.units_strictMono hab
  exact div_lt_div_of_pos_right hunits (by positivity)

variable {f} {q : ℚ} {rank low : Nat}

/-- A quotient that is a magnitude itself is not changed by rounding. -/
theorem RoundsTo.eq_of_magnitude_eq (h : f.RoundsTo q rank) {other : Nat}
    (hother : other ≤ f.infinity) (hq : f.magnitude other = q) : rank = other := by
  have hnear := h.nearest other hother
  rw [hq, sub_self, abs_zero] at hnear
  have hzero : q - f.magnitude rank = 0 := abs_nonpos_iff.mp hnear
  apply f.magnitude_strictMono.injective
  rw [hq]
  exact (sub_eq_zero.mp hzero).symm

theorem RoundsTo.unique {a b : Nat} (ha : f.RoundsTo q a) (hb : f.RoundsTo q b) : a = b := by
  wlog hlt : a < b generalizing a b with hsymm
  · rcases Nat.lt_or_eq_of_le (Nat.le_of_not_lt hlt) with hlt' | heq
    · exact (hsymm hb ha hlt').symm
    · exact heq.symm
  -- Two equally near ranks are both even, and then the one between them is nearer.
  have hdist : |q - f.magnitude a| = |q - f.magnitude b| :=
    le_antisymm (ha.nearest b hb.le_infinity) (hb.nearest a ha.le_infinity)
  have haeven := ha.even b hb.le_infinity hlt.ne' hdist
  have hbeven := hb.even a ha.le_infinity hlt.ne hdist.symm
  have hbetween := ha.nearest (a + 1) (by have := hb.le_infinity; omega)
  have hlow := f.magnitude_strictMono (Nat.lt_succ_self a)
  have hhigh : f.magnitude (a + 1) < f.magnitude b := f.magnitude_strictMono (by omega)
  exfalso
  rcases abs_cases (q - f.magnitude a) with ⟨h₁, _⟩ | ⟨h₁, _⟩ <;>
    rcases abs_cases (q - f.magnitude b) with ⟨h₂, _⟩ | ⟨h₂, _⟩ <;>
    rcases abs_cases (q - f.magnitude (a + 1)) with ⟨h₃, _⟩ | ⟨h₃, _⟩ <;>
    rw [h₁] at hdist hbetween <;> rw [h₂] at hdist <;> rw [h₃] at hbetween <;> linarith

/-! ## Rounding to the nearest rank -/

/-- A rank that is nearer than all others is the one to round to. -/
theorem RoundsTo.of_distance_lt (hrank : rank ≤ f.infinity)
    (h : ∀ other ≤ f.infinity, other ≠ rank → |q - f.magnitude rank| < |q - f.magnitude other|) :
    f.RoundsTo q rank := by
  refine ⟨hrank, fun other hother => ?_, fun other hother hne heq => ?_⟩
  · rcases Nat.decEq other rank with hne | rfl
    · exact (h other hother hne).le
    · exact le_rfl
  · exact absurd heq (h other hother hne).ne

/-- Below the middle between two neighbours the lower one is the nearest. -/
theorem roundsTo_lower (hinfinity : low < f.infinity) (hlow : f.magnitude low ≤ q)
    (hhalf : 2 * q < f.magnitude low + f.magnitude (low + 1)) : f.RoundsTo q low := by
  apply RoundsTo.of_distance_lt hinfinity.le
  intro other _ hne
  rw [abs_of_nonneg (by linarith : 0 ≤ q - f.magnitude low)]
  rcases Nat.lt_or_gt_of_ne hne with hlt | hgt
  · have hother := f.magnitude_strictMono hlt
    exact lt_abs.mpr (.inl (by linarith))
  · have hother := f.magnitude_strictMono.monotone (Nat.succ_le_of_lt hgt)
    exact lt_abs.mpr (.inr (by linarith))

/-- Above the middle between two neighbours the upper one is the nearest. -/
theorem roundsTo_upper (hinfinity : low < f.infinity) (hhigh : q < f.magnitude (low + 1))
    (hhalf : f.magnitude low + f.magnitude (low + 1) < 2 * q) : f.RoundsTo q (low + 1) := by
  apply RoundsTo.of_distance_lt hinfinity
  intro other _ hne
  rw [abs_of_neg (by linarith : q - f.magnitude (low + 1) < 0)]
  rcases Nat.lt_or_gt_of_ne hne with hlt | hgt
  · have hother := f.magnitude_strictMono.monotone (Nat.le_of_lt_succ hlt)
    exact lt_abs.mpr (.inl (by linarith))
  · have hother := f.magnitude_strictMono hgt
    exact lt_abs.mpr (.inr (by linarith))

/-- In the middle between two neighbours both are nearest, and the even one is taken. -/
theorem roundsTo_middle (hinfinity : low < f.infinity)
    (hhalf : 2 * q = f.magnitude low + f.magnitude (low + 1)) :
    f.RoundsTo q (low + low % 2) := by
  have hstep := f.magnitude_strictMono (Nat.lt_succ_self low)
  have hdist : |q - f.magnitude (low + low % 2)| = q - f.magnitude low := by
    rcases Nat.mod_two_eq_zero_or_one low with heven | hodd
    · rw [heven, Nat.add_zero]
      exact abs_of_pos (by linarith)
    · rw [hodd, abs_sub_comm, abs_of_pos (by linarith)]
      linarith
  refine ⟨by omega, fun other _ => ?_, fun other _ _ _ => by omega⟩
  rw [hdist]
  rcases Nat.lt_or_ge low other with hlt | hge
  · have hother := f.magnitude_strictMono.monotone (Nat.succ_le_of_lt hlt)
    exact le_abs.mpr (.inr (by linarith))
  · have hother := f.magnitude_strictMono.monotone hge
    exact le_abs.mpr (.inl (by linarith))

/-- Whatever is not below infinity is rounded to it. -/
theorem roundsTo_infinity (hlow : f.magnitude f.infinity ≤ q) : f.RoundsTo q f.infinity := by
  apply RoundsTo.of_distance_lt le_rfl
  intro other hother hne
  have hlt := f.magnitude_strictMono (Nat.lt_of_le_of_ne hother hne)
  rw [abs_of_nonneg (by linarith : 0 ≤ q - f.magnitude f.infinity)]
  exact lt_abs.mpr (.inl (by linarith))

/-- The steps of a quotient, counted in the binade in which the quotient lies. -/
theorem step_bounds (f : Format) (num den : Nat) :
    let excess := Nat.log2 (num / den) + 1 - f.precision
    num / (den * 2 ^ excess) < 2 * f.binade ∧
      (excess = 0 ∨ f.binade ≤ num / (den * 2 ^ excess)) := by
  intro excess
  have hprecision := f.two_le_precision
  rw [← Nat.div_div_eq_div_mul]
  constructor
  · rw [two_mul_binade, Nat.div_lt_iff_lt_mul (Nat.two_pow_pos _), ← Nat.pow_add]
    have hlt : num / den < 2 ^ (Nat.log2 (num / den) + 1) := Nat.lt_log2_self
    exact Nat.lt_of_lt_of_le hlt (Nat.pow_le_pow_right (by decide) (by omega))
  · rcases Nat.eq_zero_or_pos excess with hzero | hpos
    · exact .inl hzero
    · right
      have hlog : Nat.log2 (num / den) ≠ 0 := by omega
      have hquotient : num / den ≠ 0 := by
        intro hzero
        rw [hzero, Nat.log2_zero] at hlog
        exact hlog rfl
      rw [binade, Nat.le_div_iff_mul_le (Nat.two_pow_pos _), ← Nat.pow_add,
        show f.precision - 1 + excess = Nat.log2 (num / den) by omega]
      exact Nat.log2_self_le hquotient

/-- A quotient in a step between two neighbours, as far behind the lower one as a part of the
step. -/
theorem quotient_eq {num den steps rest excess : Nat} (hden : 0 < den)
    (hsteps : steps < 2 * f.binade) (hbinade : excess = 0 ∨ f.binade ≤ steps)
    (hdivision : den * 2 ^ excess * steps + rest = num) :
    let low := steps + excess * f.binade
    let step : ℚ := 2 ^ excess / 2 ^ f.scale
    f.magnitude (low + 1) = f.magnitude low + step ∧
      (num / den / 2 ^ f.scale : ℚ) =
        f.magnitude low + rest / (den * 2 ^ excess : Nat) * step := by
  intro low step
  have hlow : f.units low = steps * 2 ^ excess := f.units_step hsteps.le hbinade
  have hhigh : f.units (low + 1) = (steps + 1) * 2 ^ excess := by
    rw [show low + 1 = steps + 1 + excess * f.binade by omega]
    exact f.units_step (by omega) (by omega)
  have hden' : (den : ℚ) ≠ 0 := by exact_mod_cast hden.ne'
  rw [magnitude, magnitude, hlow, hhigh, ← hdivision]
  push_cast
  constructor
  · ring
  · simp only [step]
    field_simp

/-- The rounding of a quotient that is some part of the step behind a rank. -/
theorem roundsTo_of_part {part step : ℚ} (hnext : f.magnitude (low + 1) = f.magnitude low + step)
    (hpart : 0 ≤ part ∧ part < 1)
    (hrank : 2 * part < 1 ∧ rank = low ∨ 2 * part = 1 ∧ rank = low + low % 2 ∨
      1 < 2 * part ∧ rank = low + 1) :
    f.RoundsTo (f.magnitude low + part * step) (min rank f.infinity) := by
  have hstep : 0 < step := by
    have := f.magnitude_strictMono (Nat.lt_succ_self low)
    linarith
  have hbehind : 0 ≤ part * step := mul_nonneg hpart.1 hstep.le
  have hbefore : part * step < step := mul_lt_of_lt_one_left hstep hpart.2
  rcases Nat.lt_or_ge low f.infinity with hfinite | hinfinite
  · have hle : rank ≤ f.infinity := by omega
    rw [Nat.min_eq_left hle]
    rcases hrank with ⟨hhalf, rfl⟩ | ⟨hhalf, rfl⟩ | ⟨hhalf, rfl⟩
    · have hless : 2 * part * step < step := mul_lt_of_lt_one_left hstep hhalf
      exact roundsTo_lower hfinite (by linarith) (by linarith)
    · have hequal : 2 * part * step = step := by rw [hhalf, one_mul]
      exact roundsTo_middle hfinite (by linarith)
    · have hmore : step < 2 * part * step := lt_mul_of_one_lt_left hstep hhalf
      exact roundsTo_upper hfinite (by linarith) (by linarith)
  · have hge : f.infinity ≤ rank := by omega
    have hmagnitude := f.magnitude_strictMono.monotone hinfinite
    rw [Nat.min_eq_right hge]
    exact roundsTo_infinity (by linarith)

/-- The rank that is computed as the nearest one is the one that a rounding must pick. -/
theorem nearest_roundsTo (f : Format) (num : Nat) {den : Nat} (hden : 0 < den) :
    f.RoundsTo (num / den / 2 ^ f.scale) (f.nearest num den) := by
  obtain ⟨hsteps, hbinade⟩ := f.step_bounds num den
  rw [nearest, roundHalfEven]
  generalize Nat.log2 (num / den) + 1 - f.precision = excess at *
  have hgrain : 0 < den * 2 ^ excess := Nat.mul_pos hden (Nat.two_pow_pos _)
  have hdivision := Nat.div_add_mod num (den * 2 ^ excess)
  have hmod := Nat.mod_lt num hgrain
  generalize num / (den * 2 ^ excess) = steps at *
  generalize num % (den * 2 ^ excess) = rest at *
  obtain ⟨hnext, hquotient⟩ := quotient_eq hden hsteps hbinade hdivision
  rw [hquotient]
  have hparity := f.mul_binade_mod_two excess steps
  have hgrain' : (0 : ℚ) < (den * 2 ^ excess : Nat) := by exact_mod_cast hgrain
  generalize den * 2 ^ excess = grain at *
  have hpart : 0 ≤ (rest : ℚ) / grain ∧ (rest : ℚ) / grain < 1 :=
    ⟨by positivity, (div_lt_one hgrain').mpr (by exact_mod_cast hmod)⟩
  apply roundsTo_of_part hnext hpart
  rw [← mul_div_assoc, div_lt_one hgrain', div_eq_one_iff_eq hgrain'.ne', one_lt_div hgrain']
  norm_cast
  -- The rest of the division compares with half the divisor as the quotient with the middle.
  rcases Nat.lt_trichotomy (2 * rest) grain with hless | hequal | hmore
  · left
    exact ⟨hless, by rw [if_pos hless]⟩
  · right; left
    exact ⟨hequal, by rw [if_neg hequal.not_lt, if_pos hequal]; omega⟩
  · right; right
    exact ⟨hmore, by rw [if_neg hmore.not_gt, if_neg hmore.ne']; omega⟩

end Format

end RecordLog.Number
