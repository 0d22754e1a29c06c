import Mathlib.Algebra.Order.Field.Power
import RecordLog.Number.Binary.Printer
import RecordLog.Proofs.Number.Conversion

/-!
# Decimal numbers are rounded once

A decimal number is rounded as the rational number that it is, also where its exponent makes the
arithmetic unnecessary. The rounding depends on the value alone, so every way to write a value as
digits and an exponent is read as the same magnitude, and the digits that a magnitude is written
with are read as that magnitude.
-/

namespace RecordLog.Number.Format

variable {f : Format} {q : ℚ} {rank : Nat}

theorem magnitude_zero (f : Format) : f.magnitude 0 = 0 := by
  rw [magnitude, units, if_pos f.binade_pos, Nat.cast_zero, zero_div]

theorem magnitude_one (f : Format) : f.magnitude 1 = 1 / 2 ^ f.scale := by
  have hbinade : 1 < f.binade := by
    have := f.two_mul_half_binade
    have := Nat.two_pow_pos (f.precision - 2)
    omega
  rw [magnitude, units, if_pos hbinade, Nat.cast_one]

theorem roundsTo_magnitude (hrank : rank ≤ f.infinity) : f.RoundsTo (f.magnitude rank) rank := by
  apply RoundsTo.of_distance_lt hrank
  intro other _ hne
  rw [sub_self, abs_zero, abs_pos, sub_ne_zero]
  exact fun heq => hne (f.magnitude_strictMono.injective heq).symm

/-- What is less than half of the smallest magnitude is rounded to zero. -/
theorem roundsTo_zero (hq : 0 ≤ q) (hhalf : 2 * q < 1 / 2 ^ f.scale) : f.RoundsTo q 0 := by
  have hinfinity : 0 < f.infinity := by
    rw [f.infinity_eq]
    exact Nat.add_pos_left f.binade_pos _
  apply roundsTo_lower hinfinity
  · rwa [magnitude_zero]
  · rwa [magnitude_zero, magnitude_one, zero_add]

/-- A power of ten with a large exponent is past every finite magnitude. -/
theorem magnitude_infinity_le {m : Nat} {e : Int} (hm : m ≠ 0) (he : f.scale + 1 < e) :
    f.magnitude f.infinity ≤ m * 10 ^ e := by
  have hm' : (1 : ℚ) ≤ m := by exact_mod_cast Nat.one_le_iff_ne_zero.mpr hm
  obtain ⟨n, rfl⟩ := Int.eq_ofNat_of_zero_le (by omega : 0 ≤ e)
  have hn : 2 ^ (f.exponentBits - 1) ≤ n := by
    have hprecision := f.two_le_precision
    have hscale : f.scale + 1 < n := by exact_mod_cast he
    unfold scale at hscale
    omega
  calc
    f.magnitude f.infinity = 2 ^ 2 ^ (f.exponentBits - 1) := f.magnitude_infinity
    _ ≤ 2 ^ n := pow_le_pow_right₀ (by norm_num) hn
    _ ≤ 10 ^ n := pow_le_pow_left₀ (by norm_num) (by norm_num) n
    _ ≤ m * 10 ^ n := le_mul_of_one_le_left (by positivity) hm'
    _ = m * 10 ^ (n : ℤ) := by rw [zpow_natCast]

/-- The bits of the digits are at least as many as the digits, so an exponent below their number
makes a number small. -/
theorem two_mul_lt_of_exponent {m : Nat} {e : Int}
    (he : e + Nat.log2 m + 1 < -(f.scale + 1 : Int)) :
    2 * (m * 10 ^ e : ℚ) < 1 / 2 ^ f.scale := by
  have hm : (m : ℚ) < 2 ^ (Nat.log2 m + 1) := by exact_mod_cast Nat.lt_log2_self
  obtain ⟨n, hn⟩ : ∃ n : Nat, e = -n := ⟨e.natAbs, by omega⟩
  have hbits : Nat.log2 m + 1 + 1 + f.scale ≤ n := by omega
  have hten : (0 : ℚ) < 10 ^ n := by positivity
  have htwo : (0 : ℚ) < 2 ^ f.scale := by positivity
  rw [hn, zpow_neg, zpow_natCast, ← div_eq_mul_inv, ← mul_div_assoc, div_lt_div_iff₀ hten htwo,
    one_mul]
  calc
    2 * (m : ℚ) * 2 ^ f.scale < 2 * 2 ^ (Nat.log2 m + 1) * 2 ^ f.scale := by gcongr
    _ = 2 ^ (Nat.log2 m + 1 + 1 + f.scale) := by ring
    _ ≤ 2 ^ n := pow_le_pow_right₀ (by norm_num) hbits
    _ ≤ 10 ^ n := pow_le_pow_left₀ (by norm_num) (by norm_num) n

theorem toNat_zpow (e : Int) : (10 : ℚ) ^ e.toNat / 10 ^ (-e).toNat = 10 ^ e := by
  have hsplit : e = e.toNat - (-e).toNat := by omega
  conv_rhs => rw [hsplit]
  rw [zpow_sub₀ (by norm_num), zpow_natCast, zpow_natCast]

/-- A decimal number is rounded to the nearest magnitude. -/
theorem nearestDecimal_roundsTo (f : Format) (m : Nat) (e : Int) :
    f.RoundsTo (m * 10 ^ e) (f.nearestDecimal m e) := by
  rw [nearestDecimal]
  split
  · next hm =>
    rw [hm, Nat.cast_zero, zero_mul]
    have hzero := roundsTo_magnitude (f := f) (Nat.zero_le f.infinity)
    rwa [magnitude_zero] at hzero
  split
  · next hm he => exact roundsTo_infinity (magnitude_infinity_le hm he)
  split
  · next he => exact roundsTo_zero (by positivity) (two_mul_lt_of_exponent he)
  · have hden : 0 < 10 ^ (-e).toNat := Nat.pow_pos (by decide)
    have hround := f.nearest_roundsTo (m * 10 ^ e.toNat * 2 ^ f.scale) hden
    have hvalue : ((m * 10 ^ e.toNat * 2 ^ f.scale : Nat) : ℚ) / (10 ^ (-e).toNat : Nat) /
        2 ^ f.scale = m * 10 ^ e := by
      rw [← toNat_zpow]
      push_cast
      field_simp
    rwa [hvalue] at hround

/-- A decimal number that has the value of a magnitude is rounded to it. -/
theorem nearestDecimal_eq {m : Nat} {e : Int} (hrank : rank ≤ f.infinity)
    (hvalue : f.magnitude rank = m * 10 ^ e) : f.nearestDecimal m e = rank :=
  (f.nearestDecimal_roundsTo m e).eq_of_magnitude_eq hrank hvalue

/-! ## The digits of a magnitude -/

theorem nearestDecimal_of_shorter? {count m : Nat} {e : Int}
    (h : f.shorter? rank count = some (m, e)) : f.nearestDecimal m e = rank := by
  unfold shorter? at h
  dsimp only at h
  split at h
  · next hbelow =>
    cases h
    exact hbelow.1
  split at h
  · next habove =>
    cases h
    exact habove
  · cases h

/-- All the digits of a magnitude: there are no more than fives for the twos below the point. -/
theorem magnitude_eq_digits (f : Format) (rank : Nat) :
    f.magnitude rank = (f.units rank * 5 ^ f.scale : Nat) * 10 ^ (-(f.scale : Int)) := by
  have hten : (10 : ℚ) ^ f.scale = 2 ^ f.scale * 5 ^ f.scale := by
    rw [← mul_pow]
    norm_num
  rw [magnitude, zpow_neg, zpow_natCast, hten]
  push_cast
  field_simp

/-- A magnitude is read back from the digits that are chosen for it. -/
theorem nearestDecimal_shortest (hrank : rank ≤ f.infinity) :
    f.nearestDecimal (f.shortest rank).1 (f.shortest rank).2 = rank := by
  rw [shortest]
  cases hfound : (List.range digitLimit).findSome? fun n => f.shorter? rank (n + 1) with
  | none => exact nearestDecimal_eq hrank (f.magnitude_eq_digits rank)
  | some found =>
    obtain ⟨n, -, hn⟩ := List.exists_of_findSome?_eq_some hfound
    exact nearestDecimal_of_shorter? hn

end RecordLog.Number.Format
