import RecordLog.Proofs.Number.Nearest
import RecordLog.Proofs.Types.Acceptance

/-!
# Numbers of 64 bits in columns of 32

A number of 64 bits is narrowed when it is packed into a column of 32 bits. It is refused only for
its size: if it is finite and lies at or past the middle between the largest number of 32 bits and
the power of two behind it. Any other number is packed as the nearest one, and a number that was
widened comes back as it was.
-/

namespace RecordLog.DataType

open Number

variable {x : Double}

/-- A finite number is rounded to infinity from the middle in front of infinity on. -/
theorem overflows_single_iff :
    x.Overflows .single ↔ x.isFinite = true ∧ 2 ^ 128 - 2 ^ 103 ≤ |x.value| := by
  rw [Binary.overflows_iff]
  apply and_congr_right
  intro hfinite
  have hround := (x.convert_isRounding .single).finite hfinite
  rw [Binary.abs_value, ← Format.overflow_single, ← hround.eq_infinity_iff]
  exact decide_eq_true_iff

/-- A number that is not refused is packed as its rounding. -/
theorem exists_pack_narrowed (h : ¬ x.Overflows .single) :
    ∃ y : Single, float.pack (.double x) = .ok (packBinary y) ∧ y.IsRounding x ∧
      (x.isFinite = true → y.isFinite = true) := by
  obtain ⟨field, hfield⟩ := (exists_packSingle_iff (v := .double x) rfl).mpr h
  obtain ⟨y, rfl, hstores⟩ := of_packSingle hfield
  cases hstores with
  | narrowed hround hfinite => exact ⟨y, hfield, hround, hfinite⟩

/-- A number of 64 bits is refused by a column of 32 bits just if it is finite and too large.
Otherwise the nearest number is packed, with the same sign, and of two that are equally near the
one with the even significand; infinity remains infinity. So a number of 32 bits that was packed
into a column of 64 bits is packed back into one of 32 bits without a change. -/
theorem packs_nearest_single :
    (∀ x : Double, (∃ cause, float.pack (.double x) = .error cause) ↔
      x.isFinite = true ∧ 2 ^ 128 - 2 ^ 103 ≤ |x.value|) ∧
    (∀ x : Double, x.isNaN = false → ¬ (x.isFinite = true ∧ 2 ^ 128 - 2 ^ 103 ≤ |x.value|) →
      ∃ y : Single, float.pack (.double x) = .ok (packBinary y) ∧ y.negative = x.negative ∧
        (x.isFinite = true → y.IsNearest x.value) ∧ (x.isInfinite = true → y.isInfinite = true)) ∧
    ∀ v : Single, v.isNaN = false → ∃ wide w, double.pack (.float v) = .ok wide ∧
      double.unpack wide = .ok (.double w) ∧ float.pack (.double w) = .ok (packBinary v) := by
  refine ⟨?_, ?_, ?_⟩
  · intro x
    rw [← overflows_single_iff, ← not_iff_not, ← exists_packSingle_iff (v := .double x) rfl]
    change (¬ ∃ cause, packSingle (.double x) = .error cause) ↔ _
    cases packSingle (.double x) <;> simp
  · intro x hnan hroom
    rw [← overflows_single_iff] at hroom
    obtain ⟨y, hpack, hround, hkeeps⟩ := exists_pack_narrowed hroom
    refine ⟨y, hpack, hround.sign hnan, ?_, hround.infinite⟩
    intro hfinite
    exact hround.isNearest hfinite (hkeeps hfinite)
  · intro v hnan
    have hwide : (v.convert .double).IsWidening v :=
      (v.convert_isRounding .double).isWidening (by decide) (by decide)
    have hlength : (packBinary (v.convert .double)).length = double.size := Bytes.length_ofWord _ _
    have hunpack : double.unpack (packBinary (v.convert .double)) =
        .ok (.double (v.convert .double)) := by
      rw [unpack, if_pos hlength, ofWord_packBinary double_words]
    obtain ⟨y, hpack, hround, -⟩ := exists_pack_narrowed hwide.not_overflows
    rw [hround.eq_of_isWidening hwide hnan] at hpack
    exact ⟨_, _, rfl, hunpack, hpack⟩

/-- The middle is refused, the number in front of it is not, and the smallest number below zero
comes back. -/
theorem packs_nearest_single_around_the_middle :
    let first : Double := ⟨false, 0x47EFFFFFF0000000, by decide⟩
    let last : Double := ⟨true, 0x47EFFFFFEFFFFFFF, by decide⟩
    let least : Single := ⟨true, 1, by decide⟩
    (∃ cause, float.pack (.double first) = .error cause) ∧
    (∃ y : Single, float.pack (.double last) = .ok (packBinary y) ∧ y.negative = true ∧
      y.IsNearest last.value) ∧
    ∃ wide w, double.pack (.float least) = .ok wide ∧ double.unpack wide = .ok (.double w) ∧
      float.pack (.double w) = .ok (packBinary least) := by
  intro first last least
  obtain ⟨hrefused, hpacked, hback⟩ := packs_nearest_single
  have hvalue {x : Double} {m : Nat} (hrank : x.rank = m + 1149 * Format.double.binade)
      (hm : Format.double.binade ≤ m ∧ m ≤ 2 * Format.double.binade) : |x.value| = m * 2 ^ 75 := by
    rw [Binary.abs_value, Format.magnitude, hrank, Format.units_step _ hm.2 (.inr hm.1),
      show Format.double.scale = 1074 from rfl, Nat.cast_mul, Nat.cast_pow, Nat.cast_ofNat,
      show 1149 = 75 + 1074 from rfl, pow_add, ← mul_assoc,
      mul_div_cancel_right₀ _ (by positivity)]
  have hfirst : |first.value| = 0x1FFFFFF0000000 * 2 ^ 75 := by
    exact_mod_cast hvalue (x := first) (m := 0x1FFFFFF0000000) rfl (by decide)
  have hlast : |last.value| = 0x1FFFFFEFFFFFFF * 2 ^ 75 := by
    exact_mod_cast hvalue (x := last) (m := 0x1FFFFFEFFFFFFF) rfl (by decide)
  have hover : 2 ^ 128 - 2 ^ 103 ≤ |first.value| := by
    rw [hfirst]
    norm_num
  have hroom : ¬ 2 ^ 128 - 2 ^ 103 ≤ |last.value| := by
    rw [hlast]
    norm_num
  have hfinite : last.isFinite = true := by decide
  obtain ⟨y, hpack, hsign, hnearest, -⟩ :=
    hpacked last (by decide) (fun h => hroom h.2)
  refine ⟨(hrefused first).mpr ⟨by decide, hover⟩, ⟨y, hpack, hsign, hnearest hfinite⟩, ?_⟩
  exact hback least (by decide)

end RecordLog.DataType
