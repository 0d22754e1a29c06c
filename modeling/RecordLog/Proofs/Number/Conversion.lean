import RecordLog.Proofs.Number.Rounding

/-!
# Conversions into a binary format

Integers and numbers of other formats are rounded, with their sign kept. A number of a format
with fewer bits, in the significand and in the exponent, is also one of the larger format, so it
is converted without a change of its value.
-/

namespace RecordLog.Number

namespace Format

variable (f : Format)

/-- The first rank of the last binade, and so the power of two behind all finite numbers. -/
theorem infinity_eq : f.infinity = f.binade + (2 ^ f.exponentBits - 2) * f.binade := by
  have hpow : 2 ^ 2 ≤ 2 ^ f.exponentBits := Nat.pow_le_pow_right (by decide) f.two_le_exponentBits
  obtain ⟨k, hk⟩ : ∃ k, 2 ^ f.exponentBits = k + 2 := ⟨2 ^ f.exponentBits - 2, by omega⟩
  rw [infinity, ranks, hk, Nat.add_mul, Nat.add_sub_cancel]
  omega

theorem magnitude_infinity : f.magnitude f.infinity = 2 ^ 2 ^ (f.exponentBits - 1) := by
  have hprecision := f.two_le_precision
  have hdouble : 2 ^ f.exponentBits = 2 ^ (f.exponentBits - 1) + 2 ^ (f.exponentBits - 1) := by
    rw [← Nat.two_mul, Nat.mul_comm, ← Nat.pow_succ, Nat.succ_eq_add_one,
      Nat.sub_add_cancel (by have := f.two_le_exponentBits; omega)]
  have hpow : 2 ^ 1 ≤ 2 ^ (f.exponentBits - 1) :=
    Nat.pow_le_pow_right (by decide) (by have := f.two_le_exponentBits; omega)
  have hunits : f.units f.infinity = 2 ^ 2 ^ (f.exponentBits - 1) * 2 ^ f.scale := by
    rw [infinity_eq, f.units_step (by omega) (.inr le_rfl), binade, ← Nat.pow_add, ← Nat.pow_add]
    congr 1
    rw [scale]
    omega
  rw [magnitude, hunits]
  push_cast
  exact mul_div_cancel_right₀ _ (by positivity)

/-- A format with a wider exponent reaches further. -/
theorem magnitude_infinity_mono {f g : Format} (h : f.exponentBits ≤ g.exponentBits) :
    f.magnitude f.infinity ≤ g.magnitude g.infinity := by
  have hpow : 2 ^ (f.exponentBits - 1) ≤ 2 ^ (g.exponentBits - 1) :=
    Nat.pow_le_pow_right (by decide) (by omega)
  rw [magnitude_infinity, magnitude_infinity]
  exact pow_le_pow_right₀ (by norm_num) hpow

/-- Each further bit of the significand halves the smallest magnitude, at least. -/
theorem scale_add_le {f g : Format} (hprecision : f.precision ≤ g.precision)
    (hexponent : f.exponentBits ≤ g.exponentBits) :
    f.scale + (g.precision - f.precision) ≤ g.scale := by
  have hpow : 2 ^ (f.exponentBits - 1) ≤ 2 ^ (g.exponentBits - 1) :=
    Nat.pow_le_pow_right (by decide) (by omega)
  have hpos := Nat.two_pow_pos (f.exponentBits - 1)
  have := f.two_le_precision
  unfold scale
  omega

/-- A finite magnitude of a smaller format is one of a larger format. -/
theorem exists_magnitude_eq {f g : Format} (hprecision : f.precision ≤ g.precision)
    (hexponent : f.exponentBits ≤ g.exponentBits) {rank : Nat} (hrank : rank < f.infinity) :
    ∃ other < g.infinity, g.magnitude other = f.magnitude rank := by
  have hbinade : f.binade ≤ g.binade := Nat.pow_le_pow_right (by decide) (by omega)
  obtain ⟨shift, hshift⟩ : ∃ shift, g.scale = f.scale + shift :=
    Nat.exists_eq_add_of_le (by have := scale_add_le hprecision hexponent; omega)
  obtain ⟨e, m, heq, hm, he⟩ := f.exists_step rank
  obtain ⟨other, hother⟩ := g.exists_units_eq (m := m) (by omega) (e + shift)
  have hvalue : g.magnitude other = f.magnitude rank := by
    rw [magnitude, magnitude, hother, heq, f.units_step hm.le he, hshift]
    push_cast
    field_simp
    ring
  refine ⟨other, ?_, hvalue⟩
  apply g.magnitude_strictMono.lt_iff_lt.mp
  rw [hvalue]
  exact (f.magnitude_strictMono hrank).trans_le (magnitude_infinity_mono hexponent)

/-- A whole number is a magnitude if its leading bits suffice, and there is room for all of them. -/
theorem exists_magnitude_eq_natCast {m e : Nat} (hm : m ≤ 2 ^ f.precision)
    (he : f.precision + e ≤ 2 ^ (f.exponentBits - 1)) :
    ∃ rank ≤ f.infinity, f.magnitude rank = m * 2 ^ e := by
  have hcast : (m : ℚ) ≤ 2 ^ f.precision := by exact_mod_cast hm
  rw [← two_mul_binade] at hm
  obtain ⟨rank, hrank⟩ := f.exists_units_eq hm (e + f.scale)
  have hvalue : f.magnitude rank = m * 2 ^ e := by
    rw [magnitude, hrank]
    push_cast
    rw [pow_add, ← mul_assoc, mul_div_cancel_right₀ _ (by positivity)]
  refine ⟨rank, ?_, hvalue⟩
  apply f.magnitude_strictMono.le_iff_le.mp
  calc
    f.magnitude rank = m * 2 ^ e := hvalue
    _ ≤ 2 ^ f.precision * 2 ^ e := by gcongr
    _ = 2 ^ (f.precision + e) := by rw [pow_add]
    _ ≤ 2 ^ 2 ^ (f.exponentBits - 1) := pow_le_pow_right₀ (by norm_num) he
    _ = f.magnitude f.infinity := f.magnitude_infinity.symm

end Format

namespace Binary

variable {f g : Format}

/-- Whether a number is what an integer is rounded to. -/
structure IsRoundingOfInt (y : Binary f) (n : Int) : Prop where
  sign : y.negative = decide (n < 0)
  magnitude : f.RoundsTo |(n : ℚ)| y.rank

/-- Whether a number is what another one is rounded to. All that is said of NaNs is that they
remain NaNs. -/
structure IsRounding (y : Binary g) (x : Binary f) : Prop where
  sign : x.isNaN = false → y.negative = x.negative
  finite : x.isFinite = true → g.RoundsTo (f.magnitude x.rank) y.rank
  infinite : x.isInfinite = true → y.isInfinite = true
  nan : x.isNaN = true → y.isNaN = true

/-- Whether a number of another format has the same value. All that is said of NaNs is that they
remain NaNs. -/
structure IsWidening (y : Binary g) (x : Binary f) : Prop where
  sign : x.isNaN = false → y.negative = x.negative
  finite : x.isFinite = true → y.isFinite = true ∧ g.magnitude y.rank = f.magnitude x.rank
  infinite : x.isInfinite = true → y.isInfinite = true
  nan : x.isNaN = true → y.isNaN = true

theorem ext {y z : Binary f} (hsign : y.negative = z.negative) (hrank : y.rank = z.rank) :
    y = z := by
  cases y
  cases z
  cases hsign
  cases hrank
  rfl

theorem isNaN_isInfinite_of_isFinite {x : Binary f} (h : x.isFinite = true) :
    x.isNaN = false ∧ x.isInfinite = false := by
  have hrank : x.rank < f.infinity := of_decide_eq_true h
  exact ⟨decide_eq_false hrank.not_gt, decide_eq_false hrank.ne⟩

theorem isNaN_of_isInfinite {x : Binary f} (h : x.isInfinite = true) : x.isNaN = false := by
  have hrank : x.rank = f.infinity := of_decide_eq_true h
  exact decide_eq_false hrank.not_gt

theorem rank_ofRank {negative : Bool} {rank : Nat} (h : rank ≤ f.infinity) :
    (ofRank f negative rank).rank = rank := Nat.min_eq_left h

theorem isNaN_nan (f : Format) (negative : Bool) : (nan f negative).isNaN = true := by
  have hbinade := f.two_mul_half_binade
  have hpos := Nat.two_pow_pos (f.precision - 2)
  apply decide_eq_true
  change f.infinity < f.infinity + f.binade / 2
  omega

theorem ofInt_isRounding (f : Format) (n : Int) : (ofInt f n).IsRoundingOfInt n := by
  have hround := f.nearest_roundsTo (n.natAbs * 2 ^ f.scale) Nat.one_pos
  have hvalue : ((n.natAbs * 2 ^ f.scale : Nat) : ℚ) / (1 : Nat) / 2 ^ f.scale = |(n : ℚ)| := by
    push_cast
    rw [div_one, mul_div_cancel_right₀ _ (by positivity), Nat.cast_natAbs]
    push_cast
    rfl
  rw [hvalue] at hround
  refine ⟨rfl, ?_⟩
  rw [ofInt, rank_ofRank hround.le_infinity]
  exact hround

theorem IsRoundingOfInt.unique {y z : Binary f} {n : Int} (hy : y.IsRoundingOfInt n)
    (hz : z.IsRoundingOfInt n) : y = z :=
  ext (hy.sign.trans hz.sign.symm) (hy.magnitude.unique hz.magnitude)

/-- An integer that has no more bits than the format is kept as it is. -/
theorem IsRoundingOfInt.magnitude_eq {x : Binary f} {n : Int} (h : x.IsRoundingOfInt n)
    (hn : n.natAbs ≤ 2 ^ f.precision) (hroom : f.precision ≤ 2 ^ (f.exponentBits - 1)) :
    f.magnitude x.rank = |(n : ℚ)| := by
  obtain ⟨rank, hrank, hvalue⟩ := f.exists_magnitude_eq_natCast (e := 0) hn hroom
  have habs : f.magnitude rank = |(n : ℚ)| := by
    rw [hvalue, pow_zero, mul_one, Nat.cast_natAbs, Int.cast_abs]
  rw [h.magnitude.eq_of_magnitude_eq hrank habs, habs]

theorem convert_isRounding (g : Format) (x : Binary f) : (x.convert g).IsRounding x := by
  have hround := g.nearest_roundsTo (f.units x.rank * 2 ^ g.scale) (Nat.two_pow_pos f.scale)
  have hvalue : ((f.units x.rank * 2 ^ g.scale : Nat) : ℚ) / (2 ^ f.scale : Nat) / 2 ^ g.scale =
      f.magnitude x.rank := by
    rw [Format.magnitude]
    push_cast
    field_simp
  rw [hvalue] at hround
  refine ⟨fun hnan => ?_, fun hfinite => ?_, fun hinfinite => ?_, fun hnan => ?_⟩
  · rw [convert, if_neg (by simp [hnan])]
    split <;> rfl
  · obtain ⟨hnan, hinfinite⟩ := isNaN_isInfinite_of_isFinite hfinite
    rw [convert, if_neg (by simp [hnan]), if_neg (by simp [hinfinite]),
      rank_ofRank hround.le_infinity]
    exact hround
  · rw [convert, if_neg (by simp [isNaN_of_isInfinite hinfinite]), if_pos hinfinite]
    simp [isInfinite, ofRank]
  · rw [convert, if_pos hnan]
    exact isNaN_nan g x.negative

theorem IsRounding.isWidening {x : Binary f} {y : Binary g} (h : y.IsRounding x)
    (hprecision : f.precision ≤ g.precision) (hexponent : f.exponentBits ≤ g.exponentBits) :
    y.IsWidening x := by
  refine ⟨h.sign, fun hfinite => ?_, h.infinite, h.nan⟩
  have hrank : x.rank < f.infinity := of_decide_eq_true hfinite
  obtain ⟨other, hother, hvalue⟩ := Format.exists_magnitude_eq hprecision hexponent hrank
  have heq : y.rank = other := (h.finite hfinite).eq_of_magnitude_eq hother.le hvalue
  rw [heq]
  exact ⟨decide_eq_true (heq ▸ hother), hvalue⟩

end Binary

end RecordLog.Number
