import Mathlib.Data.List.DropRight
import Mathlib.Data.List.TakeWhile
import RecordLog.Text.Blank
import RecordLog.Text.Letters

/-!
# Names as they are kept

A name is kept without the blanks around it and in capitals. Neither step undoes the other, as no
letter is blank in either case, so a name that is kept already is not changed by keeping it again.
-/

namespace RecordLog

namespace Text

/-! ## Blanks around a list -/

theorem trimBlanks_eq (s : List Char) : trimBlanks s = (s.dropWhile isBlank).rdropWhile isBlank :=
  rfl

/-- What is left of a list when the blanks at its end are taken off begins as the list does. -/
theorem dropWhile_rdropWhile {s : List Char} (h : s.dropWhile isBlank = s) :
    (s.rdropWhile isBlank).dropWhile isBlank = s.rdropWhile isBlank := by
  rw [List.dropWhile_eq_self_iff] at h ⊢
  intro hleft
  have hfirst := (List.rdropWhile_prefix isBlank s).getElem hleft
  rw [hfirst]
  exact h (Nat.lt_of_lt_of_le hleft (List.rdropWhile_prefix isBlank s).length_le)

theorem trimBlanks_trimBlanks (s : List Char) : trimBlanks (trimBlanks s) = trimBlanks s := by
  have hfront := dropWhile_rdropWhile (List.dropWhile_idempotent isBlank s)
  rw [trimBlanks_eq, trimBlanks_eq, hfront]
  exact List.rdropWhile_idempotent isBlank _

/-! ## Capitals -/

theorem isAlpha_iff {c : Char} :
    c.isAlpha = true ↔ 0x41 ≤ c.toNat ∧ c.toNat ≤ 0x5A ∨ 0x61 ≤ c.toNat ∧ c.toNat ≤ 0x7A := by
  have hcapital : c.isUpper = true ↔ 0x41 ≤ c.toNat ∧ c.toNat ≤ 0x5A := decide_eq_true_iff
  have hsmall : c.isLower = true ↔ 0x61 ≤ c.toNat ∧ c.toNat ≤ 0x7A :=
    Bool.and_eq_true_iff.trans (and_congr decide_eq_true_iff decide_eq_true_iff)
  rw [← hcapital, ← hsmall]
  exact Bool.or_eq_true_iff

/-- A small letter stands 32 places behind its capital. -/
theorem toNat_toUpper (c : Char) :
    c.toUpper.toNat = if 0x61 ≤ c.toNat ∧ c.toNat ≤ 0x7A then c.toNat - 0x20 else c.toNat := by
  by_cases hsmall : 0x61 ≤ c.toNat ∧ c.toNat ≤ 0x7A
  · have hcapital : c.toUpper = ⟨c.val + ('A'.val - 'a'.val), _⟩ := dif_pos hsmall
    have hbetween : ('A'.val - 'a'.val).toNat = 2 ^ 32 - 0x20 := rfl
    rw [if_pos hsmall, hcapital, Char.toNat, UInt32.toNat_add, Char.toNat_val, hbetween]
    omega
  · rw [if_neg hsmall]
    exact congrArg Char.toNat (dif_neg hsmall)

theorem toUpper_toUpper (c : Char) : c.toUpper.toUpper = c.toUpper := by
  rw [← Char.toNat_inj, toNat_toUpper c.toUpper, toNat_toUpper]
  grind

theorem isBlank_of_isAlpha {c : Char} (h : c.isAlpha = true) : isBlank c = false := by
  rw [isAlpha_iff] at h
  simp only [isBlank, blankRanges, List.any_cons, List.any_nil, Bool.or_eq_false_iff,
    Bool.and_eq_false_iff, decide_eq_false_iff_not, and_true]
  omega

theorem isBlank_toUpper (c : Char) : isBlank c.toUpper = isBlank c := by
  have hupper := toNat_toUpper c
  split at hupper
  · next hsmall =>
    rw [isBlank_of_isAlpha (isAlpha_iff.mpr (.inr hsmall)), isBlank_of_isAlpha]
    rw [isAlpha_iff]
    omega
  · rw [Char.toNat_inj.mp hupper]

theorem trimBlanks_map_toUpper (s : List Char) :
    trimBlanks (s.map Char.toUpper) = (trimBlanks s).map Char.toUpper := by
  have hblank : isBlank ∘ Char.toUpper = isBlank := funext isBlank_toUpper
  simp only [trimBlanks, List.dropWhile_map, hblank, ← List.map_reverse]

theorem trim_trim (s : String) : trim (trim s) = trim s := by
  simp only [trim, String.toList_ofList, trimBlanks_trimBlanks]

theorem upper_upper (s : String) : upper (upper s) = upper s := by
  have htwice : Char.toUpper ∘ Char.toUpper = Char.toUpper := funext toUpper_toUpper
  simp only [upper, String.toList_ofList, List.map_map, htwice]

theorem trim_upper (s : String) : trim (upper s) = upper (trim s) := by
  simp only [trim, upper, String.toList_ofList, trimBlanks_map_toUpper]

theorem upper_eq_empty_iff {s : String} : upper s = "" ↔ s = "" := by
  rw [← String.toList_inj, ← String.toList_inj, upper, String.toList_ofList]
  exact List.map_eq_nil_iff

end Text

/-- A name as it is kept: without the blanks around it, and in capitals. -/
def keptName (name : String) : String := Text.upper (Text.trim name)

theorem upper_of_keptName {name : String} (h : keptName name = name) : Text.upper name = name := by
  rw [← h, keptName, Text.upper_upper]

theorem keptName_keptName (name : String) : keptName (keptName name) = keptName name := by
  rw [keptName, keptName, Text.trim_upper, Text.trim_trim, Text.upper_upper]

end RecordLog
