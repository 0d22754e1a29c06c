import RecordLog.Proofs.Number.DecimalRounding
import RecordLog.Proofs.Number.Order

/-!
# Rounding twice

A number may be rounded to a larger format first, and from there to a smaller one. The middles
between the magnitudes of the smaller format are magnitudes of the larger one, so the first
rounding does not take a number across a middle: all it can do is to end on one. What is then
lost is the side of the middle on which the number was, and this matters just if the number was on
the side of the odd neighbour.
-/

namespace RecordLog.Number.Format

variable {f g : Format} {q stop : ℚ} {low first once twice : Nat}

/-- Whether a number is rounded otherwise than the place where it is stopped on the way: this place
is the middle between two neighbours, and the number is on the side of the odd one. -/
def Misleads (f : Format) (q stop : ℚ) : Prop :=
  ∃ low < f.infinity, stop = f.middle low ∧
    (low % 2 = 0 ∧ stop < q ∨ low % 2 = 1 ∧ q < stop)

/-- The middles of a format are magnitudes of any format with more bits. -/
theorem exists_magnitude_eq_middle (hprecision : f.precision < g.precision)
    (hexponent : f.exponentBits ≤ g.exponentBits) (hlow : low < f.infinity) :
    ∃ other ≤ g.infinity, g.magnitude other = f.middle low := by
  have hbinade : 2 * f.binade ≤ g.binade := by
    rw [two_mul_binade]
    exact Nat.pow_le_pow_right (by decide) (by omega)
  obtain ⟨e, m, heq, hm, he⟩ := f.exists_step low
  obtain ⟨shift, hshift⟩ : ∃ shift, g.scale = f.scale + 1 + shift :=
    Nat.exists_eq_add_of_le (by have := scale_add_le hprecision.le hexponent; omega)
  have hnext : f.units (low + 1) = (m + 1) * 2 ^ e := by
    rw [heq, show m + e * f.binade + 1 = m + 1 + e * f.binade by omega]
    exact f.units_step (by omega) (by omega)
  obtain ⟨other, hother⟩ := g.exists_units_eq (m := 2 * m + 1) (by omega) (e + shift)
  have hvalue : g.magnitude other = f.middle low := by
    rw [middle, magnitude, magnitude, magnitude, hother, hnext, heq, f.units_step hm.le he, hshift]
    push_cast
    field_simp
    ring
  refine ⟨other, ?_, hvalue⟩
  apply g.magnitude_strictMono.le_iff_le.mp
  calc
    g.magnitude other = f.middle low := hvalue
    _ ≤ f.magnitude (low + 1) := by
      have hstep := f.magnitude_strictMono (Nat.lt_succ_self low)
      rw [middle]
      linarith
    _ ≤ f.magnitude f.infinity := f.magnitude_strictMono.monotone hlow
    _ ≤ g.magnitude g.infinity := magnitude_infinity_mono hexponent

/-- The first rounding keeps a number on its side of every middle. -/
theorem RoundsTo.magnitude_le_middle (hfirst : g.RoundsTo q first)
    (hprecision : f.precision < g.precision) (hexponent : f.exponentBits ≤ g.exponentBits)
    (hlow : low < f.infinity) :
    (q ≤ f.middle low → g.magnitude first ≤ f.middle low) ∧
      (f.middle low ≤ q → f.middle low ≤ g.magnitude first) := by
  obtain ⟨other, hother, hvalue⟩ := exists_magnitude_eq_middle hprecision hexponent hlow
  have hmiddle : g.RoundsTo (f.middle low) other := hvalue ▸ roundsTo_magnitude hother
  rw [← hvalue]
  constructor
  · intro hle
    exact g.magnitude_strictMono.monotone (hfirst.mono hmiddle (hvalue ▸ hle))
  · intro hge
    exact g.magnitude_strictMono.monotone (hmiddle.mono hfirst (hvalue ▸ hge))

/-- Rounding a number to a larger format first makes no difference, unless that misleads. -/
theorem RoundsTo.twice_eq_once_iff (hfirst : g.RoundsTo q first)
    (htwice : f.RoundsTo (g.magnitude first) twice) (honce : f.RoundsTo q once)
    (hprecision : f.precision < g.precision) (hexponent : f.exponentBits ≤ g.exponentBits) :
    twice = once ↔ ¬ f.Misleads q (g.magnitude first) := by
  constructor
  · rintro rfl ⟨low, hlow, hstop, hside⟩
    have hrank := htwice.unique (roundsTo_of_eq_middle hlow hstop)
    rcases hside with ⟨heven, hpast⟩ | ⟨hodd, hfront⟩
    · have hle := honce.le_middle (by omega : twice ≤ low) hlow
      linarith
    · have hge := honce.middle_le (by omega : low < twice)
      linarith
  · intro hsound
    by_contra hne
    apply hsound
    -- The middle behind the smaller one of the two results is where the number was stopped.
    rcases Nat.lt_or_gt_of_ne hne with hlt | hgt
    · have hlow : twice < f.infinity := Nat.lt_of_lt_of_le hlt honce.le_infinity
      have hge := honce.middle_le hlt
      have hstop : g.magnitude first = f.middle twice :=
        le_antisymm (htwice.le_middle le_rfl hlow)
          ((hfirst.magnitude_le_middle hprecision hexponent hlow).2 hge)
      have hrank := htwice.unique (roundsTo_of_eq_middle hlow hstop)
      refine ⟨twice, hlow, hstop, .inl ⟨by omega, ?_⟩⟩
      apply lt_of_le_of_ne (hstop ▸ hge)
      rintro heq
      exact hne (htwice.unique (heq ▸ honce))
    · have hlow : once < f.infinity := Nat.lt_of_lt_of_le hgt htwice.le_infinity
      have hle := honce.le_middle le_rfl hlow
      have hstop : g.magnitude first = f.middle once :=
        le_antisymm ((hfirst.magnitude_le_middle hprecision hexponent hlow).1 hle)
          (htwice.middle_le hgt)
      have hrank := htwice.unique (roundsTo_of_eq_middle hlow hstop)
      refine ⟨once, hlow, hstop, .inr ⟨by omega, ?_⟩⟩
      apply lt_of_le_of_ne (hstop ▸ hle)
      rintro heq
      exact hne (htwice.unique (heq ▸ honce))

/-- A number that the larger format holds is not misled on its way through it. -/
theorem not_misleads_self (f : Format) (q : ℚ) : ¬ f.Misleads q q := by
  rintro ⟨low, -, -, ⟨-, hlt⟩ | ⟨-, hlt⟩⟩ <;> exact lt_irrefl q hlt

end RecordLog.Number.Format
