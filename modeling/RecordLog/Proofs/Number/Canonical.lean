import Mathlib.Data.List.Induction
import RecordLog.Proofs.Number.Numerals

/-!
# Canonical numerals

An integer has many numerals: a plus sign and any number of leading zeros change nothing. Just one
of them has neither, and no minus sign at zero, and this is the decimal text of the integer.
-/

namespace RecordLog.Number

/-- The numeral of an integer without a plus sign and without leading zeros; zero is written
without a minus sign, too. -/
inductive IsCanonical : List Char → Int → Prop where
  | zero : IsCanonical ['0'] 0
  | positive {c : Char} {rest : List Char} (hlead : c ≠ '0') (h : Digits (c :: rest)) :
      IsCanonical (c :: rest) (digitsValue (c :: rest))
  | negative {c : Char} {rest : List Char} (hlead : c ≠ '0') (h : Digits (c :: rest)) :
      IsCanonical ('-' :: c :: rest) (-(digitsValue (c :: rest) : Int))

theorem digitValue_pos {c : Char} (hc : c.isDigit = true) (hlead : c ≠ '0') : 0 < digitValue c := by
  obtain ⟨⟨d, hd⟩, rfl⟩ := exists_eq_digitChar hc
  rw [digitValue_digitChar hd]
  apply Nat.pos_of_ne_zero
  rintro rfl
  exact hlead rfl

/-- Digits that do not begin with a zero are the digits of their value. -/
theorem digits_digitsValue {c : Char} {rest : List Char} (hlead : c ≠ '0')
    (h : Digits (c :: rest)) :
    0 < digitsValue (c :: rest) ∧ digits (digitsValue (c :: rest)) = c :: rest := by
  -- Digits are taken off a number from its end, so the induction adds them there. The value of the
  -- front is not zero, or it would not have digits of its own in front of the last one.
  induction rest using List.reverseRecOn with
  | nil =>
    have hc : c.isDigit = true := h c List.mem_cons_self
    have hvalue : digitsValue [c] = digitValue c := by simp [digitsValue]
    rw [hvalue]
    refine ⟨digitValue_pos hc hlead, ?_⟩
    obtain ⟨⟨d, hd⟩, rfl⟩ := exists_eq_digitChar hc
    rw [digitValue_digitChar hd, digits, if_pos hd]
  | append_singleton front last ih =>
    rw [← List.cons_append] at h ⊢
    obtain ⟨hpos, hfront⟩ := ih fun d hd => h d (List.mem_append_left [last] hd)
    obtain ⟨⟨d, hd⟩, rfl⟩ := exists_eq_digitChar (h last (by simp))
    rw [digitsValue_append_singleton, digitValue_digitChar hd]
    generalize digitsValue (c :: front) = value at hpos hfront ⊢
    have hquotient : (value * 10 + d) / 10 = value := by omega
    have hremainder : (value * 10 + d) % 10 = d := by omega
    refine ⟨by omega, ?_⟩
    rw [digits, if_neg (by omega), hquotient, hremainder, hfront]

/-- The digits of a positive number do not begin with a zero. -/
theorem exists_digits_eq {n : Nat} (hn : 0 < n) :
    ∃ c rest, digits n = c :: rest ∧ c ≠ '0' := by
  induction n using Nat.strongRecOn with
  | ind n ih =>
    rw [digits]
    split
    · next hone =>
      refine ⟨digitChar n, [], rfl, ?_⟩
      intro hzero
      have hvalue := digitValue_digitChar hone
      rw [hzero] at hvalue
      exact absurd hvalue (Nat.ne_of_lt hn)
    · obtain ⟨c, rest, hdigits, hlead⟩ := ih (n / 10) (by omega) (by omega)
      exact ⟨c, rest ++ [digitChar (n % 10)], by rw [hdigits, List.cons_append], hlead⟩

theorem decimal_zero : decimal 0 = ['0'] := by
  rw [decimal, if_neg (by decide), digits, if_pos (by decide)]
  rfl

theorem isCanonical_decimal (n : Int) : IsCanonical (decimal n) n := by
  by_cases hzero : n = 0
  · subst hzero
    rw [decimal_zero]
    exact .zero
  · obtain ⟨c, rest, hdigits, hlead⟩ := exists_digits_eq (n := n.natAbs) (by omega)
    have hall : Digits (c :: rest) := hdigits ▸ fun c hc => isDigit_of_mem_digits hc
    have hvalue : digitsValue (c :: rest) = n.natAbs := by rw [← hdigits, digitsValue_digits]
    rw [decimal, hdigits]
    split
    · next hneg =>
      have hcanonical := IsCanonical.negative hlead hall
      rwa [hvalue, show -(n.natAbs : Int) = n by omega] at hcanonical
    · next hpos =>
      have hcanonical := IsCanonical.positive hlead hall
      rwa [hvalue, show (n.natAbs : Int) = n by omega] at hcanonical

/-- The decimal text of an integer is its only canonical numeral. -/
theorem isCanonical_iff {s : List Char} {n : Int} : IsCanonical s n ↔ s = decimal n := by
  constructor
  · intro h
    cases h with
    | zero => exact decimal_zero.symm
    | positive hlead h =>
      rw [decimal, if_neg (by omega), Int.natAbs_natCast, (digits_digitsValue hlead h).2]
    | negative hlead h =>
      obtain ⟨hpos, hdigits⟩ := digits_digitsValue hlead h
      rw [decimal, if_pos (by omega), Int.natAbs_neg, Int.natAbs_natCast, hdigits]
  · rintro rfl
    exact isCanonical_decimal n

end RecordLog.Number
