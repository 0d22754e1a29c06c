import RecordLog.Proofs.Number.Readings

/-!
# Texts of binary numbers

The text of a number is a numeral: it is a decimal number of the same value as the digits that the
number is written with, or a name of infinity. As these digits are rounded to the number's own
magnitude, a number is read back from its text, its sign included. A NaN is not, as its text shows
neither sign nor message.
-/

namespace RecordLog

namespace Number

-- Powers of natural numbers are the built-in ones, whatever else is imported.
attribute [local instance (high)] instPowNat

/-! ## Writing decimal numbers -/

/-- The digits in front of the point and behind it, with the zeros behind them left out. -/
theorem value_of_parts {m places count : Nat} {fraction : List Char}
    (hlast : lastDigits places m = fraction ++ List.replicate count '0') :
    (digitsValue (digits (m / 10 ^ places) ++ fraction) / 10 ^ fraction.length : ℚ) =
      m * 10 ^ (-(places : Int)) := by
  have hlength := length_lastDigits places m
  rw [hlast, List.length_append, List.length_replicate] at hlength
  have hvalue : digitsValue (digits (m / 10 ^ places) ++ fraction) * 10 ^ count = m := by
    have hrest := digitsValue_lastDigits places m
    rw [hlast, digitsValue_append_zeros] at hrest
    rw [digitsValue_append, digitsValue_digits, Nat.add_mul, hrest, Nat.mul_assoc, ← Nat.pow_add,
      hlength, Nat.mul_comm, Nat.div_add_mod]
  generalize digitsValue (digits (m / 10 ^ places) ++ fraction) = value at *
  rw [← hlength, ← hvalue, zpow_neg, zpow_natCast, pow_add]
  push_cast
  field_simp

/-- Digits and an exponent are written as a decimal number of the same value. -/
theorem isUnsigned_positional (m : Nat) (e : Int) : IsUnsigned (positional m e) (m * 10 ^ e) := by
  have hdigits (n : Nat) : Digits (digits n) := fun c hc => isDigit_of_mem_digits hc
  rw [positional]
  split
  · next he =>
    obtain ⟨k, rfl⟩ := Int.eq_ofNat_of_zero_le he
    have hwhole := IsMantissa.whole (hdigits (m * 10 ^ (k : Int).toNat)) (digits_ne_nil _)
    rw [digitsValue_digits, Int.toNat_natCast] at hwhole
    push_cast at hwhole
    rw [zpow_natCast]
    exact hwhole.isUnsigned
  · next he =>
    obtain ⟨places, rfl⟩ : ∃ places : Nat, e = -places := ⟨(-e).toNat, by omega⟩
    rw [neg_neg, Int.toNat_natCast]
    obtain ⟨count, hlast⟩ := exists_eq_append_replicate '0' (lastDigits places m)
    have hfraction : Digits (lastDigits places m) := fun c hc => isDigit_of_mem_lastDigits hc
    dsimp only
    generalize ((lastDigits places m).reverse.dropWhile (· = '0')).reverse = fraction at *
    rw [hlast] at hfraction
    have hvalue := value_of_parts hlast
    have hne := digits_ne_nil (m / 10 ^ places)
    rw [← hvalue]
    split
    · next hnil =>
      subst hnil
      rw [List.append_nil, List.length_nil, pow_zero, div_one]
      exact (IsMantissa.whole (hdigits _) hne).isUnsigned
    · apply IsMantissa.isUnsigned
      apply IsMantissa.point (hdigits _) fun c hc => hfraction c (List.mem_append_left _ hc)
      exact List.append_ne_nil_of_left_ne_nil hne _

theorem mem_positional {m : Nat} {e : Int} {c : Char} (h : c ∈ positional m e) :
    c.isDigit = true ∨ c = '.' := by
  rw [positional] at h
  split at h
  · exact .inl (isDigit_of_mem_digits h)
  · rcases List.mem_append.mp h with hwhole | hfraction
    · exact .inl (isDigit_of_mem_digits hwhole)
    · split at hfraction
      · cases hfraction
      · rcases List.mem_cons.mp hfraction with rfl | hdigit
        · exact .inr rfl
        · rw [List.mem_reverse] at hdigit
          have hmem := (List.dropWhile_sublist _).subset hdigit
          exact .inl (isDigit_of_mem_lastDigits (List.mem_reverse.mp hmem))

/-! ## Reading the text of a number -/

namespace Binary

variable {f : Format} {x : Binary f}

/-- A finite number is written as a decimal number with the digits that are chosen for it. -/
theorem isDecimal_text (hfinite : x.isFinite = true) :
    IsDecimal x.text x.negative ((f.shortest x.rank).1 * 10 ^ (f.shortest x.rank).2) := by
  obtain ⟨hnan, hinfinite⟩ := isNaN_isInfinite_of_isFinite hfinite
  have hunsigned := isUnsigned_positional (f.shortest x.rank).1 (f.shortest x.rank).2
  simp only [text, hnan, hinfinite, Bool.false_eq_true, if_false]
  cases x.negative with
  | true => exact .mk .minus hunsigned
  | false => exact .mk .none hunsigned

theorem isInfinity_text (hinfinite : x.isInfinite = true) : IsInfinity x.text x.negative := by
  have hname : "inf".toList.map Char.toLower = "inf".toList := by decide
  simp only [text, hinfinite, isNaN_of_isInfinite hinfinite, Bool.false_eq_true, if_false, if_true]
  cases x.negative with
  | true => exact .mk .minus (.inl hname)
  | false => exact .mk .none (.inl hname)

/-- A number that is not a NaN is read back from its text, bit for bit. -/
theorem read_of_text (hnan : x.isNaN = false) : read f x.text = .ok x := by
  apply read_eq_ok_iff.mpr
  have hrank : x.rank ≤ f.infinity := Nat.le_of_not_lt (of_decide_eq_false hnan)
  rcases Nat.lt_or_eq_of_le hrank with hfinite | hinfinite
  · refine .decimal (isDecimal_text (decide_eq_true hfinite)) ?_
    have hround := f.nearestDecimal_roundsTo (f.shortest x.rank).1 (f.shortest x.rank).2
    rwa [Format.nearestDecimal_shortest hrank] at hround
  · exact .infinity (isInfinity_text (decide_eq_true hinfinite)) (decide_eq_true hinfinite)

end Binary

end Number

end RecordLog
