import RecordLog.Proofs.Number.DecimalRounding
import RecordLog.Proofs.Number.Order

/-!
# The digits of a number are the fewest that read back

A number with few significant digits lies on a decimal grid. If a point of a grid is read as a
magnitude, then one of the two neighbours of the magnitude on the grid is as well, because rounding
keeps the order. So a grid on which the neighbours are not read back has no point that is, and the
first grid with a hit has the fewest digits. Seventeen digits always suffice: the grid is then
finer than the binary format.
-/

namespace RecordLog.Number

/-- Whether a number has at most so many significant decimal digits. -/
def HasDigits (count : Nat) (q : ℚ) : Prop := ∃ m : Nat, ∃ e : Int, m < 10 ^ count ∧ q = m * 10 ^ e

theorem HasDigits.mono {a b : Nat} {q : ℚ} (h : HasDigits a q) (hle : a ≤ b) : HasDigits b q := by
  obtain ⟨m, e, hm, hq⟩ := h
  exact ⟨m, e, Nat.lt_of_lt_of_le hm (Nat.pow_le_pow_right (by decide) hle), hq⟩

/-- One followed by zeros has one digit. -/
theorem hasDigits_of_le {m count : Nat} (hcount : 0 < count) (hm : m ≤ 10 ^ count) (e : Int) :
    HasDigits count (m * 10 ^ e) := by
  rcases Nat.lt_or_eq_of_le hm with hlt | rfl
  · exact ⟨m, e, hlt, rfl⟩
  · refine ⟨1, count + e, Nat.one_lt_pow (by omega) (by decide), ?_⟩
    rw [zpow_add₀ (by norm_num), zpow_natCast]
    push_cast
    ring

theorem lt_pow_digitCount (n : Nat) : n < 10 ^ digitCount n := by
  fun_induction digitCount n with
  | case1 n h => simpa using h
  | case2 n h ih =>
    rw [Nat.pow_succ]
    omega

theorem pow_digitCount_le {n : Nat} (hn : 0 < n) : 10 ^ (digitCount n - 1) ≤ n := by
  fun_induction digitCount n with
  | case1 n h => exact hn
  | case2 n h ih =>
    have hpos : digitCount (n / 10) = digitCount (n / 10) - 1 + 1 := by
      rw [digitCount]
      split <;> omega
    have hrest := ih (by omega)
    rw [Nat.add_sub_cancel, hpos, Nat.pow_succ]
    omega

/-- The first hit of a search through the natural numbers. -/
theorem findSome?_range_eq_some {α : Type} {g : Nat → Option α} {count : Nat} {x : α}
    (h : (List.range count).findSome? g = some x) :
    ∃ n, g n = some x ∧ ∀ k < n, g k = none := by
  induction count with
  | zero => cases h
  | succ count ih =>
    rw [List.range_succ, List.findSome?_append, List.findSome?_singleton] at h
    cases hfront : (List.range count).findSome? g with
    | some y =>
      rw [hfront] at h
      exact ih (hfront.trans h)
    | none =>
      rw [hfront] at h
      rw [List.findSome?_eq_none_iff] at hfront
      exact ⟨count, h, fun k hk => hfront k (List.mem_range.mpr hk)⟩

namespace Format

variable {f : Format} {q : ℚ} {rank count : Nat}

/-! ## Places of a magnitude -/

theorem magnitude_lt_decimalPlace (f : Format) (rank : Nat) :
    f.magnitude rank < 10 ^ f.decimalPlace rank := by
  have hdigits : ((f.units rank * 5 ^ f.scale : Nat) : ℚ) <
      10 ^ digitCount (f.units rank * 5 ^ f.scale) := by exact_mod_cast lt_pow_digitCount _
  rw [magnitude_eq_digits, decimalPlace, sub_eq_add_neg, zpow_add₀ (by norm_num), zpow_natCast]
  exact mul_lt_mul_of_pos_right hdigits (by positivity)

theorem pow_decimalPlace_le (f : Format) {rank : Nat} (hrank : 0 < rank) :
    10 ^ (f.decimalPlace rank - 1) ≤ f.magnitude rank := by
  have hunits : 0 < f.units rank := by
    have := f.units_strictMono hrank
    omega
  have hpos : 0 < f.units rank * 5 ^ f.scale := Nat.mul_pos hunits (Nat.pow_pos (by decide))
  have hcount : 0 < digitCount (f.units rank * 5 ^ f.scale) := by
    rw [digitCount]
    split <;> omega
  have hdigits : (10 : ℚ) ^ (digitCount (f.units rank * 5 ^ f.scale) - 1) ≤
      (f.units rank * 5 ^ f.scale : Nat) := by exact_mod_cast pow_digitCount_le hpos
  have hplace : f.decimalPlace rank - 1 =
      ((digitCount (f.units rank * 5 ^ f.scale) - 1 : Nat) : Int) + -f.scale := by
    rw [decimalPlace]
    omega
  rw [magnitude_eq_digits, hplace, zpow_add₀ (by norm_num), zpow_natCast]
  exact mul_le_mul_of_nonneg_right hdigits (by positivity)

/-- The point of a decimal grid at or in front of a magnitude. -/
def gridPoint (f : Format) (rank : Nat) (e : Int) : Nat :=
  f.units rank * 10 ^ (-e).toNat / (2 ^ f.scale * 10 ^ e.toNat)

/-- The exponent of the grid of numbers with as many digits as a magnitude has places. -/
def gridExponent (f : Format) (rank count : Nat) : Int := f.decimalPlace rank - count

/-- A magnitude lies behind a grid point by what remains of the division. -/
theorem magnitude_eq_gridPoint (f : Format) (rank : Nat) (e : Int) :
    f.magnitude rank = (f.gridPoint rank e + (f.units rank * 10 ^ (-e).toNat %
      (2 ^ f.scale * 10 ^ e.toNat) : Nat) / (2 ^ f.scale * 10 ^ e.toNat : Nat)) * 10 ^ e := by
  have hdivision := Nat.div_add_mod (f.units rank * 10 ^ (-e).toNat) (2 ^ f.scale * 10 ^ e.toNat)
  have hden : ((2 ^ f.scale * 10 ^ e.toNat : Nat) : ℚ) ≠ 0 := by positivity
  have hnum : (f.units rank * 10 ^ (-e).toNat : ℚ) =
      (2 ^ f.scale * 10 ^ e.toNat : Nat) * f.gridPoint rank e +
        (f.units rank * 10 ^ (-e).toNat % (2 ^ f.scale * 10 ^ e.toNat) : Nat) := by
    rw [gridPoint]
    exact_mod_cast hdivision.symm
  generalize (f.units rank * 10 ^ (-e).toNat % (2 ^ f.scale * 10 ^ e.toNat) : Nat) = rest at *
  generalize f.gridPoint rank e = point at *
  have hvalue : f.magnitude rank = f.units rank * 10 ^ (-e).toNat /
      (2 ^ f.scale * 10 ^ e.toNat : Nat) * 10 ^ e := by
    rw [magnitude, ← toNat_zpow]
    push_cast
    field_simp
  rw [hvalue, hnum, add_div, mul_div_cancel_left₀ _ hden]

theorem gridPoint_le (f : Format) (rank : Nat) (e : Int) :
    f.gridPoint rank e * 10 ^ e ≤ f.magnitude rank := by
  rw [f.magnitude_eq_gridPoint rank e, add_mul]
  exact le_add_of_nonneg_right (by positivity)

theorem magnitude_lt_gridPoint (f : Format) (rank : Nat) (e : Int) :
    f.magnitude rank < (f.gridPoint rank e + 1) * 10 ^ e := by
  have hpos : 0 < 2 ^ f.scale * 10 ^ e.toNat :=
    Nat.mul_pos (Nat.two_pow_pos _) (Nat.pow_pos (by decide))
  have hpart : ((f.units rank * 10 ^ (-e).toNat % (2 ^ f.scale * 10 ^ e.toNat) : Nat) : ℚ) /
      (2 ^ f.scale * 10 ^ e.toNat : Nat) < 1 := by
    rw [div_lt_one (by exact_mod_cast hpos)]
    exact_mod_cast Nat.mod_lt _ hpos
  rw [f.magnitude_eq_gridPoint rank e]
  exact mul_lt_mul_of_pos_right (add_lt_add_right hpart _) (by positivity)

theorem le_gridPoint {m : Nat} {e : Int} (h : m * 10 ^ e ≤ f.magnitude rank) :
    m ≤ f.gridPoint rank e := by
  have hlt := lt_of_mul_lt_mul_right (h.trans_lt (f.magnitude_lt_gridPoint rank e)) (by positivity)
  exact Nat.le_of_lt_succ (by exact_mod_cast hlt)

theorem gridPoint_lt {m : Nat} {e : Int} (h : f.magnitude rank < m * 10 ^ e) :
    f.gridPoint rank e < m := by
  have hlt := lt_of_mul_lt_mul_right ((f.gridPoint_le rank e).trans_lt h) (by positivity)
  exact_mod_cast hlt

/-! ## Numbers with few digits -/

/-- A number with so many digits is no nearer to a magnitude than the points of the grid on either
side of it. -/
theorem HasDigits.beyond_gridPoint (hrank : 0 < rank) (hcount : 0 < count)
    (hdigits : HasDigits count q) :
    (q ≤ f.magnitude rank →
      q ≤ f.gridPoint rank (f.gridExponent rank count) * 10 ^ f.gridExponent rank count) ∧
    (f.magnitude rank < q →
      (f.gridPoint rank (f.gridExponent rank count) + 1) * 10 ^ f.gridExponent rank count ≤ q) := by
  obtain ⟨m, d, hm, rfl⟩ := hdigits
  generalize he : f.gridExponent rank count = e
  have hten : (0 : ℚ) < 10 ^ e := by positivity
  rcases le_or_gt e d with hcoarse | hfine
  · -- The number is itself a point of the grid.
    obtain ⟨n, rfl⟩ : ∃ n : Nat, d = n + e := ⟨(d - e).toNat, by omega⟩
    have hpoint : (m * 10 ^ ((n : Int) + e) : ℚ) = (m * 10 ^ n : Nat) * 10 ^ e := by
      rw [zpow_add₀ (by norm_num), zpow_natCast]
      push_cast
      ring
    rw [hpoint]
    constructor
    · intro hle
      exact mul_le_mul_of_nonneg_right (by exact_mod_cast le_gridPoint hle) hten.le
    · intro hlt
      exact mul_le_mul_of_nonneg_right (by exact_mod_cast gridPoint_lt hlt) hten.le
  · -- The number is below the decade of the magnitude, and the decade begins on the grid.
    have hdecade : (10 : ℚ) ^ (f.decimalPlace rank - 1) = (10 ^ (count - 1) : Nat) * 10 ^ e := by
      rw [show f.decimalPlace rank - 1 = ((count - 1 : Nat) : Int) + e by
        rw [← he, gridExponent]; omega, zpow_add₀ (by norm_num), zpow_natCast]
      push_cast
      rfl
    have hbegin := f.pow_decimalPlace_le hrank
    have hbelow : (m * 10 ^ d : ℚ) ≤ 10 ^ (f.decimalPlace rank - 1) := by
      have hm' : (m : ℚ) ≤ 10 ^ count := by exact_mod_cast hm.le
      calc
        (m * 10 ^ d : ℚ) ≤ 10 ^ count * 10 ^ d := mul_le_mul_of_nonneg_right hm' (by positivity)
        _ = 10 ^ ((count : Int) + d) := by rw [zpow_add₀ (by norm_num), zpow_natCast]
        _ ≤ 10 ^ (f.decimalPlace rank - 1) := by
          apply zpow_le_zpow_right₀ (by norm_num)
          rw [gridExponent] at he
          omega
    constructor
    · intro _
      rw [hdecade] at hbegin hbelow
      exact hbelow.trans
        (mul_le_mul_of_nonneg_right (by exact_mod_cast le_gridPoint hbegin) hten.le)
    · intro hlt
      exact absurd (hbelow.trans hbegin) hlt.not_ge

/-! ## The search -/

theorem of_shorter? {m : Nat} {e : Int} (h : f.shorter? rank count = some (m, e)) :
    e = f.gridExponent rank count ∧
      (m = f.gridPoint rank e ∨ m = f.gridPoint rank e + 1) := by
  unfold shorter? at h
  dsimp only at h
  split at h
  · cases h
    exact ⟨rfl, .inl rfl⟩
  split at h
  · cases h
    exact ⟨rfl, .inr rfl⟩
  · cases h

/-- The search on a grid succeeds if one of the two neighbours is read back. -/
theorem shorter?_ne_none {e : Int} (he : e = f.gridExponent rank count)
    (h : f.nearestDecimal (f.gridPoint rank e) e = rank ∨
      f.nearestDecimal (f.gridPoint rank e + 1) e = rank) : f.shorter? rank count ≠ none := by
  subst he
  unfold gridPoint gridExponent at h
  unfold shorter?
  dsimp only
  split
  · exact Option.some_ne_none _
  split
  · exact Option.some_ne_none _
  · next hbelow habove =>
    rcases h with h | h
    · exact absurd ⟨h, .inr habove⟩ hbelow
    · exact absurd h habove

theorem shorter?_ne_none_of_hasDigits (hpos : 0 < rank) (hcount : 0 < count)
    (hdigits : HasDigits count q) (hround : f.RoundsTo q rank) :
    f.shorter? rank count ≠ none := by
  have hself := roundsTo_magnitude hround.le_infinity
  have hread := f.nearestDecimal_roundsTo
  obtain ⟨hbelow, habove⟩ := HasDigits.beyond_gridPoint (f := f) hpos hcount hdigits
  apply shorter?_ne_none rfl
  rcases le_or_gt q (f.magnitude rank) with hle | hgt
  · left
    exact hround.eq_of_between hself (hread _ _) (hbelow hle) (f.gridPoint_le rank _)
  · right
    have hnext := hread (f.gridPoint rank (f.gridExponent rank count) + 1)
      (f.gridExponent rank count)
    push_cast at hnext
    exact hself.eq_of_between hround hnext (f.magnitude_lt_gridPoint rank _).le (habove hgt)

/-- A point of the grid in front of a magnitude or behind it has as many digits as the grid. -/
theorem hasDigits_of_shorter? {m : Nat} {e : Int} (hcount : 0 < count)
    (h : f.shorter? rank count = some (m, e)) : HasDigits count (m * 10 ^ e) := by
  obtain ⟨he, hm⟩ := of_shorter? h
  apply hasDigits_of_le hcount
  have hplace : f.magnitude rank < (10 ^ count : Nat) * 10 ^ e := by
    push_cast
    rw [← zpow_natCast, ← zpow_add₀ (by norm_num),
      show (count : Int) + e = f.decimalPlace rank by rw [he, gridExponent]; omega]
    exact f.magnitude_lt_decimalPlace rank
  have hlt := gridPoint_lt hplace
  omega

/-! ## Seventeen digits suffice -/

/-- Neighbouring magnitudes are apart by a part of them that the precision tells. -/
theorem magnitude_succ_le (f : Format) (low : Nat) :
    f.magnitude (low + 1) ≤ 2 ^ f.precision * (f.magnitude (low + 1) - f.magnitude low) := by
  obtain ⟨e, m, heq, hm, he⟩ := f.exists_step low
  have hnext : f.units (low + 1) = (m + 1) * 2 ^ e := by
    rw [heq, show m + e * f.binade + 1 = m + 1 + e * f.binade by omega]
    exact f.units_step (by omega) (by omega)
  have hsteps : m + 1 ≤ 2 ^ f.precision := f.two_mul_binade ▸ hm
  rw [magnitude, magnitude, hnext, heq, f.units_step hm.le he, ← sub_div, ← mul_div_assoc]
  push_cast
  apply div_le_div_of_nonneg_right _ (by positivity)
  rw [← sub_mul, add_sub_cancel_left, one_mul]
  exact mul_le_mul_of_nonneg_right (by exact_mod_cast hsteps) (by positivity)

/-- What is near to a magnitude, compared with its size, is rounded to it. -/
theorem roundsTo_of_close (hpos : 0 < rank) (hrank : rank < f.infinity)
    (hclose : 2 ^ (f.precision + 1) * |q - f.magnitude rank| < f.magnitude rank) :
    f.RoundsTo q rank := by
  obtain ⟨low, rfl⟩ := Nat.exists_eq_succ_of_ne_zero hpos.ne'
  rw [pow_succ, mul_assoc] at hclose
  have htwo : (0 : ℚ) < 2 ^ f.precision := by positivity
  have hstep := f.magnitude_strictMono (Nat.lt_succ_self low)
  have hstep' := f.magnitude_strictMono (Nat.lt_succ_self low.succ)
  have hbelow := lt_of_mul_lt_mul_left (hclose.trans_le (f.magnitude_succ_le low)) htwo.le
  have habove := lt_of_mul_lt_mul_left
    ((hclose.trans hstep').trans_le (f.magnitude_succ_le low.succ)) htwo.le
  rcases le_or_gt (f.magnitude low.succ) q with hge | hlt
  · rw [abs_of_nonneg (by linarith)] at habove
    exact roundsTo_lower hrank hge (by linarith)
  · rw [abs_of_neg (by linarith)] at hbelow
    exact roundsTo_upper (by omega) hlt (by linarith)

/-- On a grid with seventeen digits, the nearer neighbour of a magnitude is read back. -/
theorem shorter?_digitLimit_ne_none (hprecision : 2 ^ f.precision < 10 ^ (digitLimit - 1))
    (hpos : 0 < rank) (hrank : rank < f.infinity) : f.shorter? rank digitLimit ≠ none := by
  generalize he : f.gridExponent rank digitLimit = e
  have hten : (0 : ℚ) < 10 ^ e := by positivity
  have hfine : (2 : ℚ) ^ f.precision * 10 ^ e < f.magnitude rank := by
    have hprecision' : (2 : ℚ) ^ f.precision < 10 ^ (digitLimit - 1) := by exact_mod_cast hprecision
    calc
      (2 : ℚ) ^ f.precision * 10 ^ e < 10 ^ (digitLimit - 1) * 10 ^ e :=
        mul_lt_mul_of_pos_right hprecision' hten
      _ = 10 ^ (f.decimalPlace rank - 1) := by
        rw [← zpow_natCast, ← zpow_add₀ (by norm_num), ← he, gridExponent, digitLimit]
        congr 1
        omega
      _ ≤ f.magnitude rank := f.pow_decimalPlace_le hpos
  have hnear {point : Nat} (hhalf : 2 * |point * 10 ^ e - f.magnitude rank| ≤ 10 ^ e) :
      f.nearestDecimal point e = rank := by
    apply (f.nearestDecimal_roundsTo point e).unique
    apply roundsTo_of_close hpos hrank
    rw [pow_succ, mul_assoc]
    exact (mul_le_mul_of_nonneg_left hhalf (by positivity)).trans_lt hfine
  have hbelow := f.gridPoint_le rank e
  have habove := f.magnitude_lt_gridPoint rank e
  apply shorter?_ne_none he.symm
  rcases le_total (2 * (f.magnitude rank - f.gridPoint rank e * 10 ^ e)) (10 ^ e) with hlow | hhigh
  · left
    apply hnear
    rw [abs_of_nonpos (by linarith)]
    linarith
  · right
    apply hnear
    push_cast
    rw [abs_of_nonneg (by linarith)]
    linarith

theorem shorter?_zero (f : Format) (count : Nat) : ∃ e, f.shorter? 0 count = some (0, e) := by
  have hunits : f.units 0 = 0 := by rw [units, if_pos f.binade_pos]
  refine ⟨f.decimalPlace 0 - count, ?_⟩
  simp [shorter?, hunits, nearestDecimal]

theorem shortest_zero (f : Format) : (f.shortest 0).1 = 0 := by
  rw [shortest]
  cases hfound : (List.range digitLimit).findSome? fun n => f.shorter? 0 (n + 1) with
  | none =>
    rw [Option.getD_none, units, if_pos f.binade_pos, Nat.zero_mul]
  | some found =>
    obtain ⟨n, -, hn⟩ := List.exists_of_findSome?_eq_some hfound
    obtain ⟨e, he⟩ := f.shorter?_zero (n + 1)
    rw [he] at hn
    rw [Option.getD_some, ← Option.some.inj hn]

/-- Whatever number is rounded to a magnitude, the digits of the magnitude are no more. -/
theorem hasDigits_shortest (hprecision : 2 ^ f.precision < 10 ^ (digitLimit - 1))
    (hrank : rank < f.infinity) (hround : f.RoundsTo q rank) (hdigits : HasDigits count q) :
    HasDigits count ((f.shortest rank).1 * 10 ^ (f.shortest rank).2) := by
  rcases Nat.eq_zero_or_pos rank with rfl | hpos
  · rw [shortest_zero]
    exact ⟨0, 0, Nat.pow_pos (by decide), by simp⟩
  have hcount : 0 < count := by
    rw [Nat.pos_iff_ne_zero]
    rintro rfl
    obtain ⟨m, e, hm, hq⟩ := hdigits
    obtain rfl : m = 0 := by simpa using hm
    rw [Nat.cast_zero, zero_mul] at hq
    have hzero := hround.eq_of_magnitude_eq (Nat.zero_le _) (f.magnitude_zero.trans hq.symm)
    exact hpos.ne' hzero
  -- The search ends at the latest where the number has as many digits, or with seventeen.
  obtain ⟨limit, hlimit, hle, hsome⟩ : ∃ limit < digitLimit, limit + 1 ≤ count ∧
      f.shorter? rank (limit + 1) ≠ none := by
    rcases Nat.lt_or_ge (count - 1) digitLimit with hshort | hlong
    · refine ⟨count - 1, hshort, by omega, ?_⟩
      rw [Nat.sub_add_cancel hcount]
      exact shorter?_ne_none_of_hasDigits hpos hcount hdigits hround
    · refine ⟨digitLimit - 1, by decide, ?_, shorter?_digitLimit_ne_none hprecision hpos hrank⟩
      have : digitLimit = 17 := rfl
      omega
  rw [shortest]
  cases hfound : (List.range digitLimit).findSome? fun n => f.shorter? rank (n + 1) with
  | none =>
    have hnone := List.findSome?_eq_none_iff.mp hfound limit (List.mem_range.mpr hlimit)
    exact absurd hnone hsome
  | some found =>
    obtain ⟨n, hn, hfirst⟩ := findSome?_range_eq_some hfound
    have hbefore : n ≤ limit := Nat.le_of_not_lt fun hlt => hsome (hfirst limit hlt)
    exact (hasDigits_of_shorter? (Nat.succ_pos n) hn).mono (by omega)

end Format

end RecordLog.Number
