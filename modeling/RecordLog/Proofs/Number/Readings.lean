import RecordLog.Number.Binary.Reader
import RecordLog.Proofs.Number.DecimalRounding
import RecordLog.Proofs.Number.Numerals
import RecordLog.Proofs.Number.Order
import RecordLog.Proofs.Text.Runs

/-!
# What numerals of binary formats are

The grammar of numerals is laid down over characters: a sign that may be left out, and behind it a
name or a decimal number, which has digits on one side of a point at least and may have an
exponent. The reader accepts these and nothing else. A decimal number is never refused for its
size: it is read as the magnitude that it is rounded to, be it infinity.
-/

namespace RecordLog.Number

-- Powers of natural numbers are the built-in ones, whatever else is imported.
attribute [local instance (high)] instPowNat

/-! ## The grammar -/

/-- Digits with a point among them, in front of them or behind them, or without one. -/
inductive IsMantissa : List Char → ℚ → Prop where
  | whole {digits : List Char} (h : Digits digits) (hne : digits ≠ []) :
      IsMantissa digits (digitsValue digits)
  | point {whole fraction : List Char} (hwhole : Digits whole) (hfraction : Digits fraction)
      (hne : whole ++ fraction ≠ []) :
      IsMantissa (whole ++ '.' :: fraction)
        (digitsValue (whole ++ fraction) / 10 ^ fraction.length)

inductive IsExponent : List Char → Int → Prop where
  | none : IsExponent [] 0
  | marked {mark : Char} {rest : List Char} {negative : Bool} {e : Int}
      (hmark : mark = 'e' ∨ mark = 'E') (h : IsSigned rest negative e) :
      IsExponent (mark :: rest) e

/-- A decimal number without a sign, and its value. -/
inductive IsUnsigned : List Char → ℚ → Prop where
  | mk {mantissa exponent : List Char} {q : ℚ} {e : Int} (hmantissa : IsMantissa mantissa q)
      (hexponent : IsExponent exponent e) : IsUnsigned (mantissa ++ exponent) (q * 10 ^ e)

/-- A decimal number, whether it has a minus sign, and its value without the sign. -/
inductive IsDecimal : List Char → Bool → ℚ → Prop where
  | mk {sign unsigned : List Char} {negative : Bool} {q : ℚ} (hsign : IsSign sign negative)
      (h : IsUnsigned unsigned q) : IsDecimal (sign ++ unsigned) negative q

/-- The names of infinity, in any case, with a sign. -/
inductive IsInfinity : List Char → Bool → Prop where
  | mk {sign name : List Char} {negative : Bool} (hsign : IsSign sign negative)
      (h : name.map Char.toLower = "inf".toList ∨ name.map Char.toLower = "infinity".toList) :
      IsInfinity (sign ++ name) negative

/-- The name of what is not a number, in any case, with a sign. -/
inductive IsNaNName : List Char → Bool → Prop where
  | mk {sign name : List Char} {negative : Bool} (hsign : IsSign sign negative)
      (h : name.map Char.toLower = "nan".toList) : IsNaNName (sign ++ name) negative

/-! ## Reading decimal numbers -/

theorem readDigits?_eq_some_iff {s : List Char} {n : Nat} :
    readDigits? s = some n ↔ Digits s ∧ s ≠ [] ∧ digitsValue s = n := by
  rw [readDigits?, Option.ite_none_right_eq_some, List.all_eq_true, Option.some.injEq]
  constructor
  · rintro ⟨⟨hne, hdigits⟩, hvalue⟩
    exact ⟨hdigits, hne, hvalue⟩
  · rintro ⟨hdigits, hne, hvalue⟩
    exact ⟨⟨hne, hdigits⟩, hvalue⟩

theorem readExponent?_eq_some_iff {s : List Char} {e : Int} :
    readExponent? s = some e ↔ IsExponent s e := by
  constructor
  · intro h
    cases s with
    | nil =>
      obtain rfl := Option.some.inj h
      exact .none
    | cons mark rest =>
      simp only [readExponent?, Option.ite_none_right_eq_some] at h
      obtain ⟨hmark, h⟩ := h
      split at h
      all_goals
        obtain ⟨n, hn, rfl⟩ := Option.map_eq_some_iff.mp h
        obtain ⟨hdigits, hne, rfl⟩ := readDigits?_eq_some_iff.mp hn
      · exact .marked hmark (.mk .minus hdigits hne)
      · exact .marked hmark (.mk .plus hdigits hne)
      · exact .marked hmark (.mk .none hdigits hne)
  · rintro (_ | ⟨hmark, hsign, hdigits, hne⟩)
    · rfl
    · have hread := readDigits?_eq_some_iff.mpr ⟨hdigits, hne, rfl⟩
      cases hsign with
      | none =>
        obtain ⟨c, rest, rfl, hc⟩ := hdigits.exists_cons hne
        obtain ⟨hplus, hminus⟩ := ne_sign_of_isDigit hc
        simp [readExponent?, hmark, hplus, hminus, hread]
      | plus => simp [readExponent?, hmark, hread]
      | minus => simp [readExponent?, hmark, hread]

/-- An exponent begins neither with a digit nor with a point. -/
theorem IsExponent.head {s : List Char} {e : Int} (h : IsExponent s e) :
    s.head?.all (!Char.isDigit ·) = true ∧ ∀ rest, s ≠ '.' :: rest := by
  cases h with
  | none => exact ⟨rfl, fun rest => by simp⟩
  | marked hmark => rcases hmark with rfl | rfl <;> exact ⟨rfl, fun rest => by simp⟩

/-- Places behind the point lower the exponent. -/
theorem div_pow_mul_zpow (m places : Nat) (e : Int) :
    (m / 10 ^ places * 10 ^ e : ℚ) = m * 10 ^ (e - places) := by
  rw [zpow_sub₀ (by norm_num), zpow_natCast]
  ring

/-- A decimal number is read as digits and an exponent of its value. -/
theorem IsUnsigned.exists_readScientific? {s : List Char} {q : ℚ} (h : IsUnsigned s q) :
    ∃ n, readScientific? s = some n ∧ (n.digits * 10 ^ n.exponent : ℚ) = q := by
  obtain @⟨mantissa, exponent, _, e, hmantissa, hexponent⟩ := h
  have hread := readExponent?_eq_some_iff.mpr hexponent
  obtain ⟨hdigit, hpoint⟩ := hexponent.head
  cases hmantissa with
  | whole hdigits hne =>
    obtain ⟨htake, hdrop⟩ := takeWhile_run hdigits exponent hdigit
    refine ⟨⟨digitsValue mantissa, e⟩, ?_, rfl⟩
    -- That no point follows tells which case of the reader this is.
    simp [readScientific?, htake, hdrop, hne, hread]
  | @point whole fraction hwhole hfraction hne =>
    obtain ⟨htake, hdrop⟩ := takeWhile_run hwhole ('.' :: (fraction ++ exponent)) rfl
    obtain ⟨htake', hdrop'⟩ := takeWhile_run hfraction exponent hdigit
    refine ⟨⟨digitsValue (whole ++ fraction), e - fraction.length⟩, ?_, ?_⟩
    · rw [List.append_assoc, List.cons_append]
      simp only [readScientific?, htake, hdrop, htake', hdrop', hread, if_neg hne]
      rfl
    · exact (div_pow_mul_zpow _ _ _).symm

/-- What is read as digits and an exponent is a decimal number. -/
theorem isUnsigned_of_readScientific? {s : List Char} {n : Scientific}
    (h : readScientific? s = some n) : IsUnsigned s (n.digits * 10 ^ n.exponent) := by
  have hsplit := List.takeWhile_append_dropWhile (p := Char.isDigit) (l := s)
  have hwhole : Digits (s.takeWhile Char.isDigit) := fun c hc => List.mem_takeWhile_imp hc
  unfold readScientific? at h
  generalize s.takeWhile Char.isDigit = whole at *
  generalize s.dropWhile Char.isDigit = rest at *
  subst hsplit
  dsimp only at h
  split at h
  · next rest =>
    have hsplit := List.takeWhile_append_dropWhile (p := Char.isDigit) (l := rest)
    have hfraction : Digits (rest.takeWhile Char.isDigit) :=
      fun c hc => List.mem_takeWhile_imp hc
    generalize rest.takeWhile Char.isDigit = fraction at *
    generalize rest.dropWhile Char.isDigit = exponent at *
    subst hsplit
    dsimp only at h
    rw [Option.ite_none_left_eq_some, Option.bind_eq_bind, Option.bind_eq_some_iff] at h
    obtain ⟨hne, e, hexponent, hn⟩ := h
    obtain rfl := Option.some.inj hn
    have hunsigned := IsUnsigned.mk (.point hwhole hfraction hne)
      (readExponent?_eq_some_iff.mp hexponent)
    rwa [div_pow_mul_zpow, List.append_assoc, List.cons_append] at hunsigned
  · dsimp only at h
    rw [Option.ite_none_left_eq_some, Option.bind_eq_bind, Option.bind_eq_some_iff] at h
    obtain ⟨hne, e, hexponent, hn⟩ := h
    obtain rfl := Option.some.inj hn
    rw [List.append_nil] at hne ⊢
    have hunsigned := IsUnsigned.mk (.whole hwhole hne) (readExponent?_eq_some_iff.mp hexponent)
    simpa using hunsigned

theorem IsUnsigned.first {s : List Char} {q : ℚ} (h : IsUnsigned s q) :
    ∃ c rest, s = c :: rest ∧ (c.isDigit = true ∨ c = '.') := by
  obtain ⟨hmantissa, -⟩ := h
  cases hmantissa with
  | whole hdigits hne =>
    obtain ⟨c, rest, rfl, hc⟩ := hdigits.exists_cons hne
    exact ⟨c, _, rfl, .inl hc⟩
  | @point whole _ hwhole _ _ =>
    cases whole with
    | nil => exact ⟨'.', _, rfl, .inr rfl⟩
    | cons c rest => exact ⟨c, _, rfl, .inl (hwhole c List.mem_cons_self)⟩

/-- An exponent may be left out. -/
theorem IsMantissa.isUnsigned {s : List Char} {q : ℚ} (h : IsMantissa s q) : IsUnsigned s q := by
  have hunsigned := IsUnsigned.mk h .none
  rwa [zpow_zero, mul_one, List.append_nil] at hunsigned

/-- What is written as an integer is a decimal number of the same size. -/
theorem IsSigned.isDecimal {s : List Char} {negative : Bool} {n : Int}
    (h : IsSigned s negative n) : IsDecimal s negative |(n : ℚ)| := by
  obtain ⟨hsign, hdigits, hne⟩ := h
  have hdecimal := IsDecimal.mk hsign (IsMantissa.whole hdigits hne).isUnsigned
  split
  · rwa [Int.cast_neg, abs_neg, Int.cast_natCast, Nat.abs_cast]
  · rwa [Int.cast_natCast, Nat.abs_cast]

/-! ## Reading numerals -/

namespace Binary

variable {f : Format} {s : List Char} {negative : Bool} {x : Binary f}

/-- The numerals of a format, each with the number that it stands for. -/
inductive IsNumeral (f : Format) : List Char → Binary f → Prop where
  | decimal {s : List Char} {q : ℚ} {x : Binary f} (h : IsDecimal s x.negative q)
      (hround : f.RoundsTo q x.rank) : IsNumeral f s x
  | infinity {s : List Char} {x : Binary f} (h : IsInfinity s x.negative)
      (hinfinite : x.isInfinite = true) : IsNumeral f s x
  | nan {s : List Char} {negative : Bool} (h : IsNaNName s negative) :
      IsNumeral f s (nan f negative)

/-- The names of numbers begin neither with a digit nor with a point. -/
theorem map_toLower_ne_name {c : Char} (hfirst : c.isDigit = true ∨ c = '.') (rest : List Char) :
    ∀ name ∈ ["inf".toList, "infinity".toList, "nan".toList],
      (c :: rest).map Char.toLower ≠ name := by
  have hdigit : ∀ d : Fin 10, ∀ name ∈ ["inf".toList, "infinity".toList, "nan".toList],
      some (digitChar d.val).toLower ≠ name.head? := by decide
  have hpoint : ∀ name ∈ ["inf".toList, "infinity".toList, "nan".toList],
      some ('.').toLower ≠ name.head? := by decide
  intro name hmem heq
  rcases hfirst with hc | rfl
  · obtain ⟨d, rfl⟩ := exists_eq_digitChar hc
    exact hdigit d name hmem (congrArg List.head? heq)
  · exact hpoint name hmem (congrArg List.head? heq)

theorem readUnsigned_of_decimal {negative : Bool} {c : Char} {rest : List Char} {n : Scientific}
    (hfirst : c.isDigit = true ∨ c = '.') (h : readScientific? (c :: rest) = some n) :
    readUnsigned f negative (c :: rest) =
      .ok (ofRank f negative (f.nearestDecimal n.digits n.exponent)) := by
  have hname := map_toLower_ne_name hfirst rest
  unfold readUnsigned
  dsimp only
  rw [if_neg, if_neg, h]
  · exact hname _ (by simp)
  · exact not_or.mpr ⟨hname _ (by simp), hname _ (by simp)⟩

theorem ofRank_rank {x : Binary f} (hnan : x.isNaN = false) : ofRank f x.negative x.rank = x := by
  have hrank : x.rank ≤ f.infinity := Nat.le_of_not_lt (of_decide_eq_false hnan)
  obtain ⟨negative, rank, hlt⟩ := x
  simp only [ofRank, Nat.min_eq_left hrank]

theorem read_of_ne_sign (f : Format) {c : Char} (hminus : c ≠ '-') (hplus : c ≠ '+')
    (rest : List Char) : read f (c :: rest) = readUnsigned f false (c :: rest) := by
  unfold read
  split <;> simp_all

theorem read_sign {sign unsigned : List Char} (hsign : IsSign sign negative)
    (hfirst : ∃ c rest, unsigned = c :: rest ∧ c ≠ '-' ∧ c ≠ '+') :
    read f (sign ++ unsigned) = readUnsigned f negative unsigned := by
  cases hsign with
  | none =>
    obtain ⟨c, rest, rfl, hminus, hplus⟩ := hfirst
    exact read_of_ne_sign f hminus hplus rest
  | plus => rfl
  | minus => rfl

theorem exists_readUnsigned (h : read f s = .ok x) :
    ∃ sign unsigned negative, s = sign ++ unsigned ∧ IsSign sign negative ∧
      readUnsigned f negative unsigned = .ok x := by
  unfold read at h
  split at h
  · cases h
  · exact ⟨_, _, _, rfl, .minus, h⟩
  · exact ⟨_, _, _, rfl, .plus, h⟩
  · exact ⟨[], s, _, rfl, .none, h⟩

/-- A decimal number is read as what it is rounded to, whatever its size. -/
theorem exists_read_of_isDecimal {q : ℚ} (h : IsDecimal s negative q) :
    ∃ x : Binary f, read f s = .ok x ∧ x.negative = negative ∧ f.RoundsTo q x.rank := by
  obtain ⟨hsign, hunsigned⟩ := h
  obtain ⟨n, hread, rfl⟩ := hunsigned.exists_readScientific?
  obtain ⟨c, rest, rfl, hfirst⟩ := hunsigned.first
  have hround := f.nearestDecimal_roundsTo n.digits n.exponent
  refine ⟨ofRank f negative (f.nearestDecimal n.digits n.exponent), ?_, rfl, ?_⟩
  · rw [read_sign hsign, readUnsigned_of_decimal hfirst hread]
    refine ⟨c, rest, rfl, ?_, ?_⟩ <;> rintro rfl <;> simp at hfirst
  · rwa [rank_ofRank hround.le_infinity]

theorem first_of_name {name : List Char} (h : name.map Char.toLower ∈
    ["inf".toList, "infinity".toList, "nan".toList]) :
    ∃ c rest, name = c :: rest ∧ c ≠ '-' ∧ c ≠ '+' := by
  cases name with
  | nil => simp at h
  | cons c rest => refine ⟨c, rest, rfl, ?_, ?_⟩ <;> rintro rfl <;> simp at h

theorem isInfinite_ofRank_infinity (f : Format) (negative : Bool) :
    (ofRank f negative f.infinity).isInfinite = true :=
  decide_eq_true (rank_ofRank le_rfl)

theorem read_infinity (h : IsInfinity s negative) :
    read f s = .ok (ofRank f negative f.infinity) := by
  obtain ⟨hsign, hname⟩ := h
  rw [read_sign hsign (first_of_name (by rcases hname with h | h <;> simp [h])), readUnsigned,
    if_pos hname]

theorem read_nan (h : IsNaNName s negative) : read f s = .ok (nan f negative) := by
  obtain ⟨hsign, hname⟩ := h
  have hother : ¬ ("nan".toList = "inf".toList ∨ "nan".toList = "infinity".toList) := by decide
  rw [read_sign hsign (first_of_name (by simp [hname])), readUnsigned, hname, if_neg hother,
    if_pos rfl]

/-- A text is read as a number just if it is a numeral that stands for it. -/
theorem read_eq_ok_iff : read f s = .ok x ↔ IsNumeral f s x := by
  constructor
  · intro h
    obtain ⟨sign, unsigned, negative, rfl, hsign, h⟩ := exists_readUnsigned h
    unfold readUnsigned at h
    dsimp only at h
    split at h
    · next hname =>
      obtain rfl := Except.ok.inj h
      exact .infinity (.mk hsign hname) (isInfinite_ofRank_infinity f negative)
    split at h
    · next hname =>
      obtain rfl := Except.ok.inj h
      exact .nan (.mk hsign hname)
    split at h
    · next n hread =>
      obtain rfl := Except.ok.inj h
      have hround := f.nearestDecimal_roundsTo n.digits n.exponent
      refine .decimal (.mk hsign (isUnsigned_of_readScientific? hread)) ?_
      rwa [rank_ofRank hround.le_infinity]
    · cases h
  · intro h
    cases h with
    | decimal hdecimal hround =>
      obtain ⟨y, hread, hsign, hround'⟩ := exists_read_of_isDecimal (f := f) hdecimal
      rw [hread, ext hsign (hround'.unique hround)]
    | infinity hname hinfinite =>
      have hrank : x.rank = f.infinity := of_decide_eq_true hinfinite
      rw [read_infinity hname, ← hrank, ofRank_rank (isNaN_of_isInfinite hinfinite)]
    | nan hname => exact read_nan hname

/-- A number that is read from a text is infinite just if the text is a name of infinity, or a
decimal number from the middle in front of infinity on. -/
theorem isInfinite_iff_of_read (h : read f s = .ok x) :
    x.isInfinite = true ↔
      IsInfinity s x.negative ∨ ∃ q, IsDecimal s x.negative q ∧ f.overflow ≤ q := by
  constructor
  · intro hinfinite
    cases read_eq_ok_iff.mp h with
    | decimal hdecimal hround =>
      exact .inr ⟨_, hdecimal, hround.eq_infinity_iff.mp (of_decide_eq_true hinfinite)⟩
    | infinity hname _ => exact .inl hname
    | nan _ =>
      have hnan := isNaN_of_isInfinite hinfinite
      rw [isNaN_nan] at hnan
      cases hnan
  · rintro (hname | ⟨q, hdecimal, hover⟩)
    · rw [read_infinity hname] at h
      rw [← Except.ok.inj h]
      exact isInfinite_ofRank_infinity f _
    · obtain ⟨y, hread, -, hround⟩ := exists_read_of_isDecimal (f := f) hdecimal
      obtain rfl := Except.ok.inj (hread.symm.trans h)
      exact decide_eq_true (hround.eq_infinity_iff.mpr hover)

/-- The decimal text of an integer is read as the integer, rounded once. -/
theorem read_decimal (f : Format) (n : Int) : read f (decimal n) = .ok (ofInt f n) := by
  obtain ⟨x, hread, hsign, hround⟩ :=
    exists_read_of_isDecimal (f := f) (isSigned_decimal n).isDecimal
  have hx : x.IsRoundingOfInt n := ⟨hsign, hround⟩
  rw [hread, hx.unique (ofInt_isRounding f n)]

end Binary

end RecordLog.Number
