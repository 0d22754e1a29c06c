import RecordLog.Proofs.Number.Conversion

/-!
# Rounding keeps the order of numbers

Two magnitudes that follow each other share the middle between them. What is rounded to the lower
one, or further down, is not past the middle, and what is rounded to the upper one, or further up,
is not in front of it. So of two numbers the larger one is not rounded to the smaller magnitude,
and the middle in front of infinity is where numbers begin to be rounded to infinity.
-/

namespace RecordLog.Number.Format

variable {f : Format} {p q : ℚ} {a b rank low : Nat}

/-- The middle between a magnitude and the next one. -/
def middle (f : Format) (low : Nat) : ℚ := (f.magnitude low + f.magnitude (low + 1)) / 2

theorem RoundsTo.le_middle (h : f.RoundsTo q rank) (hrank : rank ≤ low)
    (hlow : low < f.infinity) : q ≤ f.middle low := by
  have hnear := h.nearest (low + 1) hlow
  have hle := f.magnitude_strictMono.monotone hrank
  have hstep := f.magnitude_strictMono (Nat.lt_succ_self low)
  by_contra hpast
  rw [middle, not_le] at hpast
  rw [abs_of_pos (by linarith : 0 < q - f.magnitude rank)] at hnear
  rcases abs_cases (q - f.magnitude (low + 1)) with ⟨habs, _⟩ | ⟨habs, _⟩ <;>
    rw [habs] at hnear <;> linarith

theorem RoundsTo.middle_le (h : f.RoundsTo q rank) (hrank : low < rank) : f.middle low ≤ q := by
  have hinfinity := h.le_infinity
  have hnear := h.nearest low (by omega)
  have hle := f.magnitude_strictMono.monotone (Nat.succ_le_of_lt hrank)
  have hstep := f.magnitude_strictMono (Nat.lt_succ_self low)
  by_contra hfront
  rw [middle, not_le] at hfront
  rw [abs_of_neg (by linarith : q - f.magnitude rank < 0)] at hnear
  rcases abs_cases (q - f.magnitude low) with ⟨habs, _⟩ | ⟨habs, _⟩ <;>
    rw [habs] at hnear <;> linarith

theorem roundsTo_of_eq_middle (hlow : low < f.infinity) (hq : q = f.middle low) :
    f.RoundsTo q (low + low % 2) := by
  apply roundsTo_middle hlow
  rw [hq, middle]
  ring

theorem RoundsTo.mono (ha : f.RoundsTo p a) (hb : f.RoundsTo q b) (hle : p ≤ q) : a ≤ b := by
  by_contra hgt
  have hlt : b < a := Nat.lt_of_not_le hgt
  have hbefore := hb.le_middle le_rfl (Nat.lt_of_lt_of_le hlt ha.le_infinity)
  have hbehind := ha.middle_le hlt
  obtain rfl : p = q := le_antisymm hle (hbefore.trans hbehind)
  exact hgt (ha.unique hb).le

/-- What lies between two numbers that are rounded alike is rounded like them. -/
theorem RoundsTo.eq_of_between {x : ℚ} (hp : f.RoundsTo p rank) (hq : f.RoundsTo q rank)
    (hx : f.RoundsTo x a) (hlow : p ≤ x) (hhigh : x ≤ q) : a = rank :=
  le_antisymm (hx.mono hq hhigh) (hp.mono hx hlow)

/-! ## Overflow -/

theorem infinity_mod_two (f : Format) : f.infinity % 2 = 0 := by
  rw [infinity_eq, mul_binade_mod_two, two_mul_half_binade, Nat.mul_mod_right]

theorem infinity_pos (f : Format) : 0 < f.infinity := by
  rw [infinity_eq]
  exact Nat.add_pos_left f.binade_pos _

/-- The middle in front of infinity. -/
def overflow (f : Format) : ℚ := f.middle (f.infinity - 1)

/-- From the middle in front of infinity on, numbers are rounded to infinity. -/
theorem RoundsTo.eq_infinity_iff (h : f.RoundsTo q rank) :
    rank = f.infinity ↔ f.overflow ≤ q := by
  have hpos := f.infinity_pos
  constructor
  · rintro rfl
    exact h.middle_le (by omega)
  · intro hover
    by_contra hne
    have hle := h.le_infinity
    have hbefore := h.le_middle (by omega : rank ≤ f.infinity - 1) (by omega)
    have hmiddle := roundsTo_of_eq_middle (by omega) (le_antisymm hbefore hover)
    have heven := f.infinity_mod_two
    have hrank := h.unique hmiddle
    omega

/-- The last finite magnitude falls short of infinity by one part of as many as there are
significands. -/
theorem magnitude_pred_infinity (f : Format) :
    f.magnitude (f.infinity - 1) =
      f.magnitude f.infinity - f.magnitude f.infinity / 2 ^ f.precision := by
  have hpow : 2 ^ 2 ≤ 2 ^ f.exponentBits := Nat.pow_le_pow_right (by decide) f.two_le_exponentBits
  obtain ⟨e, he⟩ : ∃ e, 2 ^ f.exponentBits = e + 3 := ⟨2 ^ f.exponentBits - 3, by omega⟩
  have hpos := f.binade_pos
  have hinfinity : f.infinity = 2 * f.binade + e * f.binade := by
    rw [infinity_eq, he, show e + 3 - 2 = e + 1 by omega, Nat.add_mul]
    omega
  have hlast : f.infinity - 1 = 2 * f.binade - 1 + e * f.binade := by omega
  rw [magnitude, magnitude, hlast, f.units_step (by omega) (by omega), hinfinity,
    f.units_step le_rfl (by omega), two_mul_binade]
  have hcast : ((2 ^ f.precision - 1 : Nat) : ℚ) = 2 ^ f.precision - 1 := by
    rw [Nat.cast_sub Nat.one_le_two_pow]
    push_cast
    rfl
  push_cast [hcast]
  field_simp

theorem overflow_eq (f : Format) :
    f.overflow = 2 ^ 2 ^ (f.exponentBits - 1) -
      2 ^ 2 ^ (f.exponentBits - 1) / 2 ^ (f.precision + 1) := by
  have hpos := f.infinity_pos
  rw [overflow, middle, Nat.sub_add_cancel hpos, magnitude_pred_infinity, magnitude_infinity]
  field_simp
  ring

theorem overflow_single : single.overflow = 2 ^ 128 - 2 ^ 103 := by
  rw [overflow_eq]
  change (2 : ℚ) ^ 128 - 2 ^ 128 / 2 ^ 25 = 2 ^ 128 - 2 ^ 103
  rw [show 128 = 103 + 25 from rfl, pow_add, mul_div_cancel_right₀ _ (by positivity)]

theorem overflow_double : double.overflow = 2 ^ 1024 - 2 ^ 970 := by
  rw [overflow_eq]
  change (2 : ℚ) ^ 1024 - 2 ^ 1024 / 2 ^ 54 = 2 ^ 1024 - 2 ^ 970
  rw [show 1024 = 970 + 54 from rfl, pow_add, mul_div_cancel_right₀ _ (by positivity)]

end RecordLog.Number.Format
