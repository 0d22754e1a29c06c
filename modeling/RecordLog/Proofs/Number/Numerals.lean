import RecordLog.Number.Binary.Printer
import RecordLog.Number.Integer

/-!
# Numerals

What is written as a numeral is made of digits, and a run of digits is worth as much as its parts
at their places. So an integer within its limits is read back from its decimal text.
-/

namespace RecordLog.Number

-- Powers of natural numbers are the built-in ones, whatever else is imported.
attribute [local instance (high)] instPowNat

/-! ## Runs of digits -/

theorem isDigit_digitChar {d : Nat} (h : d < 10) : (digitChar d).isDigit = true := by
  have hall : ∀ d : Fin 10, (digitChar d.val).isDigit = true := by decide
  exact hall ⟨d, h⟩

theorem exists_eq_digitChar {c : Char} (h : c.isDigit = true) : ∃ d : Fin 10, c = digitChar d := by
  have hbounds : 48 ≤ c.toNat ∧ c.toNat ≤ 57 := by
    simpa [Char.isDigit, UInt32.le_iff_toNat_le] using h
  refine ⟨⟨c.toNat - 48, by omega⟩, ?_⟩
  rw [digitChar, Nat.add_sub_cancel' hbounds.1, Char.ofNat_toNat]

theorem isDigit_of_mem_digits {n : Nat} {c : Char} (h : c ∈ digits n) : c.isDigit = true := by
  induction n using Nat.strongRecOn with
  | ind n ih =>
    rw [digits] at h
    split at h
    · next hn =>
      rw [List.mem_singleton.mp h]
      exact isDigit_digitChar hn
    · next hn =>
      rcases List.mem_append.mp h with hfront | hlast
      · exact ih (n / 10) (by omega) hfront
      · rw [List.mem_singleton.mp hlast]
        exact isDigit_digitChar (Nat.mod_lt n (by decide))

theorem digits_ne_nil (n : Nat) : digits n ≠ [] := by
  rw [digits]
  split
  · exact List.cons_ne_nil _ _
  · exact List.append_ne_nil_of_right_ne_nil _ (List.cons_ne_nil _ _)

theorem foldl_digitValue (value : Nat) (s : List Char) :
    s.foldl (fun value c => value * 10 + digitValue c) value =
      value * 10 ^ s.length + digitsValue s := by
  induction s generalizing value with
  | nil => simp [digitsValue]
  | cons c rest ih =>
    rw [digitsValue, List.foldl_cons, List.foldl_cons, ih, ih (0 * 10 + digitValue c),
      List.length_cons, Nat.pow_succ]
    simp only [Nat.add_mul, Nat.zero_mul, Nat.zero_add, Nat.mul_assoc, Nat.add_assoc,
      Nat.mul_comm 10]

theorem digitsValue_append (s t : List Char) :
    digitsValue (s ++ t) = digitsValue s * 10 ^ t.length + digitsValue t := by
  rw [← foldl_digitValue, digitsValue, List.foldl_append]
  rfl

theorem digitsValue_append_zeros (s : List Char) (count : Nat) :
    digitsValue (s ++ List.replicate count '0') = digitsValue s * 10 ^ count := by
  induction count with
  | zero => simp
  | succ count ih =>
    rw [List.replicate_succ', ← List.append_assoc, digitsValue_append_singleton, ih,
      Nat.pow_succ, Nat.mul_assoc]
    rfl

theorem length_lastDigits (count n : Nat) : (lastDigits count n).length = count := by
  induction count generalizing n with
  | zero => rfl
  | succ count ih => rw [lastDigits, List.length_append, ih, List.length_singleton]

theorem isDigit_of_mem_lastDigits {count n : Nat} {c : Char} (h : c ∈ lastDigits count n) :
    c.isDigit = true := by
  induction count generalizing n with
  | zero => cases h
  | succ count ih =>
    rcases List.mem_append.mp h with hfront | hlast
    · exact ih hfront
    · rw [List.mem_singleton.mp hlast]
      exact isDigit_digitChar (Nat.mod_lt n (by decide))

theorem digitsValue_lastDigits (count n : Nat) :
    digitsValue (lastDigits count n) = n % 10 ^ count := by
  induction count generalizing n with
  | zero => rw [Nat.pow_zero, Nat.mod_one]; rfl
  | succ count ih =>
    rw [lastDigits, digitsValue_append_singleton, ih,
      digitValue_digitChar (Nat.mod_lt n (by decide)), Nat.pow_succ, Nat.mul_comm (10 ^ count),
      Nat.mod_mul]
    omega

/-! ## Integers -/

def Digits (s : List Char) : Prop := ∀ c ∈ s, c.isDigit = true

instance (s : List Char) : Decidable (Digits s) :=
  decidable_of_iff (s.all Char.isDigit = true) List.all_eq_true

theorem Digits.exists_cons {s : List Char} (h : Digits s) (hne : s ≠ []) :
    ∃ c rest, s = c :: rest ∧ c.isDigit = true := by
  obtain ⟨c, rest, rfl⟩ := List.exists_cons_of_ne_nil hne
  exact ⟨c, rest, rfl, h c List.mem_cons_self⟩

theorem ne_sign_of_isDigit {c : Char} (h : c.isDigit = true) : c ≠ '+' ∧ c ≠ '-' := by
  constructor <;> rintro rfl <;> cases h

/-- A sign that may be left out, and whether it is a minus sign. -/
inductive IsSign : List Char → Bool → Prop where
  | none : IsSign [] false
  | plus : IsSign ['+'] false
  | minus : IsSign ['-'] true

/-- Digits behind a sign, whether it is a minus sign, and their value. -/
inductive IsSigned : List Char → Bool → Int → Prop where
  | mk {sign digits : List Char} {negative : Bool} (hsign : IsSign sign negative)
      (h : Digits digits) (hne : digits ≠ []) :
      IsSigned (sign ++ digits) negative
        (if negative then -(digitsValue digits : Int) else digitsValue digits)

theorem IsSigned.unique {s : List Char} {a b : Bool} {m n : Int} (hm : IsSigned s a m)
    (hn : IsSigned s b n) : m = n := by
  obtain @⟨sign, digits, _, hsign, hdigits, hne⟩ := hm
  obtain ⟨c, rest, rfl, hc⟩ := hdigits.exists_cons hne
  generalize heq : sign ++ c :: rest = s at hn
  obtain @⟨sign', digits', _, hsign', hdigits', hne'⟩ := hn
  obtain ⟨c', rest', rfl, hc'⟩ := hdigits'.exists_cons hne'
  obtain ⟨hplus, hminus⟩ := ne_sign_of_isDigit hc
  obtain ⟨hplus', hminus'⟩ := ne_sign_of_isDigit hc'
  cases hsign <;> cases hsign' <;> simp_all [hplus'.symm, hminus'.symm]

/-- A run of digits behind a value is read as long as the result is within the limit. -/
theorem readMagnitude_eq {limit : Nat} {beyond : IntegerFlaw} {value n : Nat} {s : List Char}
    (hdigits : Digits s) (hvalue : value ≤ limit)
    (hn : value * 10 ^ s.length + digitsValue s = n) (h : n ≤ limit) :
    readMagnitude limit beyond value hvalue s = .ok ⟨n, h⟩ := by
  induction s generalizing value with
  | nil =>
    obtain rfl : value = n := by simpa [digitsValue] using hn
    rfl
  | cons c rest ih =>
    rw [← foldl_digitValue, List.foldl_cons, foldl_digitValue] at hn
    have hstep : value * 10 + digitValue c ≤ limit := by
      have hpow : 0 < 10 ^ rest.length := Nat.pow_pos (by decide)
      have hle := Nat.le_mul_of_pos_right (value * 10 + digitValue c) hpow
      omega
    rw [readMagnitude, if_pos (hdigits c List.mem_cons_self), dif_pos hstep]
    exact ih (fun d hd => hdigits d (List.mem_cons_of_mem c hd)) hstep hn

/-- What is read behind a value is a run of digits, and they are worth the rest of the result. -/
theorem digits_of_readMagnitude {limit : Nat} {beyond : IntegerFlaw} {value : Nat} {s : List Char}
    {hvalue : value ≤ limit} {m : { n : Nat // n ≤ limit }}
    (h : readMagnitude limit beyond value hvalue s = .ok m) :
    Digits s ∧ value * 10 ^ s.length + digitsValue s = m.val := by
  induction s generalizing value with
  | nil =>
    obtain rfl := Except.ok.inj h
    refine ⟨List.forall_mem_nil _, ?_⟩
    rw [List.length_nil, Nat.pow_zero, Nat.mul_one]
    rfl
  | cons c rest ih =>
    rw [readMagnitude] at h
    split at h
    · next hdigit =>
      split at h
      · next hstep =>
        obtain ⟨hdigits, hsum⟩ := ih h
        refine ⟨List.forall_mem_cons.mpr ⟨hdigit, hdigits⟩, ?_⟩
        rw [← hsum, ← foldl_digitValue, List.foldl_cons, foldl_digitValue]
      · cases h
    · cases h

theorem map_readMagnitude_eq_ok_iff {α : Type} {limit : Nat} {beyond : IntegerFlaw}
    {s : List Char} {g : { n : Nat // n ≤ limit } → α} {x : α} :
    (readMagnitude limit beyond 0 (Nat.zero_le _) s).map g = .ok x ↔
      Digits s ∧ ∃ h : digitsValue s ≤ limit, g ⟨digitsValue s, h⟩ = x := by
  constructor
  · intro h
    cases hread : readMagnitude limit beyond 0 (Nat.zero_le _) s with
    | error flaw =>
      rw [hread] at h
      cases h
    | ok m =>
      rw [hread] at h
      obtain ⟨hdigits, hsum⟩ := digits_of_readMagnitude hread
      rw [Nat.zero_mul, Nat.zero_add] at hsum
      obtain ⟨n, hn⟩ := m
      subst hsum
      exact ⟨hdigits, hn, Except.ok.inj h⟩
  · rintro ⟨hdigits, hle, rfl⟩
    have hsum : 0 * 10 ^ s.length + digitsValue s = digitsValue s := by
      rw [Nat.zero_mul, Nat.zero_add]
    rw [readMagnitude_eq hdigits (Nat.zero_le _) hsum hle]
    rfl

/-- A run of digits that takes the value past the limit is refused. -/
theorem readMagnitude_eq_error {limit : Nat} {beyond : IntegerFlaw} {value : Nat} {s : List Char}
    (hdigits : Digits s) (hvalue : value ≤ limit)
    (h : limit < value * 10 ^ s.length + digitsValue s) :
    readMagnitude limit beyond value hvalue s = .error beyond := by
  induction s generalizing value with
  | nil =>
    rw [List.length_nil, Nat.pow_zero, Nat.mul_one] at h
    exact absurd hvalue (Nat.not_le_of_lt h)
  | cons c rest ih =>
    rw [← foldl_digitValue, List.foldl_cons, foldl_digitValue] at h
    rw [readMagnitude, if_pos (hdigits c List.mem_cons_self)]
    split
    · next hstep => exact ih (fun d hd => hdigits d (List.mem_cons_of_mem c hd)) hstep h
    · rfl

/-- Behind a sign that the limits admit, digits are read up to the limit on the sign's side. -/
theorem exists_readInteger_eq {low high : Int} (hzero : low ≤ 0 ∧ 0 ≤ high)
    {sign digits : List Char} {negative : Bool} (hsign : IsSign sign negative)
    (hdigits : Digits digits) (hne : digits ≠ []) (hlow : negative = true → low < 0) :
    ∃ g : { n : Nat // n ≤ if negative then low.natAbs else high.toNat } →
        { n : Int // low ≤ n ∧ n ≤ high },
      (∀ n, (g n).val = if negative then -(n.val : Int) else n.val) ∧
      readInteger low high hzero (sign ++ digits) =
        (readMagnitude _ (if negative then .tooSmall else .tooLarge) 0 (Nat.zero_le _) digits).map
          g := by
  have hhigh {n : Nat} (hn : n ≤ high.toNat) : low ≤ (n : Int) ∧ (n : Int) ≤ high := by omega
  have hlowest {n : Nat} (hn : n ≤ low.natAbs) : low ≤ -(n : Int) ∧ -(n : Int) ≤ high := by omega
  obtain ⟨c, rest, rfl, hc⟩ := hdigits.exists_cons hne
  cases hsign with
  | none =>
    obtain ⟨hplus, hminus⟩ := ne_sign_of_isDigit hc
    refine ⟨fun n => ⟨n.val, hhigh n.property⟩, fun n => rfl, ?_⟩
    -- A digit is no sign, so the digits get to the last case of the reader.
    unfold readInteger
    split
    case h_6 => rfl
    all_goals simp_all
  | plus =>
    exact ⟨fun n => ⟨n.val, hhigh n.property⟩, fun n => rfl, rfl⟩
  | minus =>
    refine ⟨fun n => ⟨-n.val, hlowest n.property⟩, fun n => rfl, ?_⟩
    unfold readInteger
    simp only [List.singleton_append, if_pos (hlow rfl)]
    rfl

/-- An integer is read just if it is written within the limits, and with a minus sign only if they
admit numbers below zero. -/
theorem readInteger_eq_ok_iff {low high : Int} (hzero : low ≤ 0 ∧ 0 ≤ high) {s : List Char}
    {m : { n : Int // low ≤ n ∧ n ≤ high }} :
    readInteger low high hzero s = .ok m ↔
      ∃ negative, IsSigned s negative m.val ∧ (negative = true → low < 0) := by
  constructor
  · intro h
    unfold readInteger at h
    dsimp only at h
    split at h
    · cases h
    · cases h
    · cases h
    · next rest hne =>
      obtain ⟨hdigits, -, rfl⟩ := map_readMagnitude_eq_ok_iff.mp h
      refine ⟨false, .mk .plus hdigits (by rintro rfl; exact hne rfl), by simp⟩
    · next rest hne =>
      split at h
      · next hlow =>
        obtain ⟨hdigits, -, rfl⟩ := map_readMagnitude_eq_ok_iff.mp h
        exact ⟨true, .mk .minus hdigits (by rintro rfl; exact hne rfl), fun _ => hlow⟩
      · cases h
    · next hne _ _ _ _ =>
      obtain ⟨hdigits, -, rfl⟩ := map_readMagnitude_eq_ok_iff.mp h
      exact ⟨false, .mk .none hdigits hne, by simp⟩
  · rintro ⟨negative, h, hlow⟩
    obtain ⟨n, hn⟩ := m
    obtain @⟨sign, digits, _, hsign, hdigits, hne⟩ := h
    obtain ⟨g, hvalue, hread⟩ := exists_readInteger_eq hzero hsign hdigits hne hlow
    rw [hread, map_readMagnitude_eq_ok_iff]
    refine ⟨hdigits, ?_, Subtype.ext (hvalue _)⟩
    cases negative with
    | false => exact (Int.le_toNat hzero.2).mpr hn.2
    | true =>
      have hbound : low ≤ -(digitsValue digits : Int) := hn.1
      rw [if_pos rfl]
      omega

/-- An integer that is written past the limits is refused, and the sign tells which limit it is. -/
theorem readInteger_eq_error {low high : Int} (hzero : low ≤ 0 ∧ 0 ≤ high) {s : List Char}
    {negative : Bool} {n : Int} (h : IsSigned s negative n) (hlow : negative = true → low < 0)
    (hpast : ¬ (low ≤ n ∧ n ≤ high)) :
    readInteger low high hzero s = .error (if negative then .tooSmall else .tooLarge) := by
  obtain @⟨sign, digits, _, hsign, hdigits, hne⟩ := h
  obtain ⟨g, -, hread⟩ := exists_readInteger_eq hzero hsign hdigits hne hlow
  rw [hread, readMagnitude_eq_error hdigits]
  · rfl
  · rw [Nat.zero_mul, Nat.zero_add]
    cases negative with
    | false =>
      have hpast : ¬ (low ≤ (digitsValue digits : Int) ∧ (digitsValue digits : Int) ≤ high) := hpast
      rw [if_neg Bool.false_ne_true]
      omega
    | true =>
      have hpast : ¬ (low ≤ -(digitsValue digits : Int) ∧ -(digitsValue digits : Int) ≤ high) :=
        hpast
      rw [if_pos rfl]
      omega

theorem isSigned_decimal (n : Int) : IsSigned (decimal n) (decide (n < 0)) n := by
  have hdigits : Digits (digits n.natAbs) := fun c hc => isDigit_of_mem_digits hc
  rw [decimal]
  split
  · next hneg =>
    have hsigned := IsSigned.mk .minus hdigits (digits_ne_nil _)
    have habs : -(n.natAbs : Int) = n := by omega
    rw [if_pos rfl, digitsValue_digits, habs] at hsigned
    rwa [decide_eq_true hneg]
  · next hpos =>
    have hsigned := IsSigned.mk .none hdigits (digits_ne_nil _)
    have habs : (n.natAbs : Int) = n := by omega
    rw [if_neg Bool.false_ne_true, digitsValue_digits, habs] at hsigned
    rwa [decide_eq_false hpos]

/-- An integer is read back from its decimal text. -/
theorem readInteger_decimal {low high : Int} (hzero : low ≤ 0 ∧ 0 ≤ high) {n : Int}
    (h : low ≤ n ∧ n ≤ high) : readInteger low high hzero (decimal n) = .ok ⟨n, h⟩ := by
  apply (readInteger_eq_ok_iff hzero).mpr
  refine ⟨_, isSigned_decimal n, ?_⟩
  intro hneg
  have hlt : n < 0 := of_decide_eq_true hneg
  omega

/-- Nothing else is read from the decimal text of an integer, whatever the limits. -/
theorem val_of_readInteger_decimal {low high n : Int} {hzero : low ≤ 0 ∧ 0 ≤ high}
    {m : { n : Int // low ≤ n ∧ n ≤ high }} (h : readInteger low high hzero (decimal n) = .ok m) :
    m.val = n := by
  obtain ⟨_, hsigned, -⟩ := (readInteger_eq_ok_iff hzero).mp h
  exact hsigned.unique (isSigned_decimal n)

end RecordLog.Number
