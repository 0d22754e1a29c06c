import Mathlib.Data.List.Forall2
import RecordLog.Proofs.Text.Names

/-!
# Texts that differ in case only

Names of columns and types are the same to their readers if they differ in the case of letters only.
Texts of this kind fall into the same parts: whatever is no letter stands at the same places in
both, and a reader that asks only whether a character is a letter cannot tell them apart.
-/

namespace RecordLog.Text

/-- Whether a character is another one as a capital or as a small letter. What is no letter stands
for itself. -/
def Recased (x y : Char) : Prop := y = x.toUpper ∨ y = x.toLower

/-- Whether characters become others if the case of some letters is changed. -/
def SameLetters : List Char → List Char → Prop := List.Forall₂ Recased

/-! ## Characters -/

theorem toNat_toLower (c : Char) :
    c.toLower.toNat = if 0x41 ≤ c.toNat ∧ c.toNat ≤ 0x5A then c.toNat + 0x20 else c.toNat := by
  by_cases hcapital : 0x41 ≤ c.toNat ∧ c.toNat ≤ 0x5A
  · have hsmall : c.toLower = ⟨c.val + ('a'.val - 'A'.val), _⟩ := dif_pos hcapital
    have hbetween : ('a'.val - 'A'.val).toNat = 0x20 := rfl
    rw [if_pos hcapital, hsmall, Char.toNat, UInt32.toNat_add, Char.toNat_val, hbetween]
    omega
  · rw [if_neg hcapital]
    exact congrArg Char.toNat (dif_neg hcapital)

namespace Recased

variable {x y : Char}

theorem toUpper_eq_iff : x.toUpper = y.toUpper ↔ Recased x y := by
  rw [Recased, ← Char.toNat_inj, ← Char.toNat_inj, ← Char.toNat_inj, toNat_toUpper, toNat_toUpper,
    toNat_toLower]
  grind

theorem isAlpha_eq (h : Recased x y) : y.isAlpha = x.isAlpha := by
  rw [Bool.eq_iff_iff, isAlpha_iff, isAlpha_iff]
  rcases h with rfl | rfl
  · rw [toNat_toUpper]
    grind
  · rw [toNat_toLower]
    grind

theorem eq_of_not_isAlpha (h : Recased x y) (hx : x.isAlpha = false) : y = x := by
  rw [← Bool.not_eq_true, isAlpha_iff] at hx
  rw [← Char.toNat_inj]
  rcases h with rfl | rfl
  · rw [toNat_toUpper]
    grind
  · rw [toNat_toLower]
    grind

/-- A class that holds all letters, or none, does not tell their case. -/
theorem class_eq {p : Char → Bool} {letters : Bool} (hp : ∀ c, c.isAlpha = true → p c = letters)
    (h : Recased x y) : p y = p x := by
  cases hx : x.isAlpha with
  | true => rw [hp x hx, hp y (h.isAlpha_eq.trans hx)]
  | false => rw [h.eq_of_not_isAlpha hx]

end Recased

/-! ## Lists of characters -/

theorem sameLetters_iff {s t : List Char} :
    SameLetters s t ↔ s.map Char.toUpper = t.map Char.toUpper := by
  rw [← List.forall₂_eq_eq_eq, List.forall₂_map_left_iff, List.forall₂_map_right_iff]
  exact ⟨fun h => h.imp fun _ _ => Recased.toUpper_eq_iff.mpr,
    fun h => h.imp fun _ _ => Recased.toUpper_eq_iff.mp⟩

instance (s t : List Char) : Decidable (SameLetters s t) := decidable_of_iff _ sameLetters_iff.symm

namespace SameLetters

variable {s t u front behind : List Char} {c : Char}

theorem symm (h : SameLetters s t) : SameLetters t s :=
  sameLetters_iff.mpr (sameLetters_iff.mp h).symm

theorem trans (h : SameLetters s t) (h' : SameLetters t u) : SameLetters s u :=
  sameLetters_iff.mpr ((sameLetters_iff.mp h).trans (sameLetters_iff.mp h'))

theorem of_append (h : SameLetters (front ++ behind) t) :
    ∃ front' behind', t = front' ++ behind' ∧ SameLetters front front' ∧
      SameLetters behind behind' := by
  rw [sameLetters_iff, List.map_append, eq_comm, List.map_eq_append_iff] at h
  obtain ⟨front', behind', rfl, hfront, hbehind⟩ := h
  exact ⟨front', behind', rfl, sameLetters_iff.mpr hfront.symm, sameLetters_iff.mpr hbehind.symm⟩

/-- What is no letter is found again at its place. -/
theorem of_cons (h : SameLetters (c :: s) t) (hc : c.isAlpha = false := by decide) :
    ∃ rest, t = c :: rest ∧ SameLetters s rest := by
  obtain ⟨y, rest, hy, hrest, rfl⟩ := List.forall₂_cons_left_iff.mp h
  rw [hy.eq_of_not_isAlpha hc]
  exact ⟨rest, rfl, hrest⟩

theorem eq_of_not_isAlpha (h : SameLetters s t) (hs : ∀ x ∈ s, x.isAlpha = false) : t = s := by
  induction h with
  | nil => rfl
  | cons hy hrest ih =>
    obtain ⟨hx, hbehind⟩ := List.forall_mem_cons.mp hs
    rw [hy.eq_of_not_isAlpha hx, ih hbehind]

theorem all_class {p : Char → Bool} {letters : Bool} (hp : ∀ c, c.isAlpha = true → p c = letters)
    (h : SameLetters s t) (hs : ∀ x ∈ s, p x = true) : ∀ x ∈ t, p x = true := by
  induction h with
  | nil => exact hs
  | cons hy hrest ih =>
    obtain ⟨hx, hbehind⟩ := List.forall_mem_cons.mp hs
    exact List.forall_mem_cons.mpr ⟨(hy.class_eq hp).trans hx, ih hbehind⟩

theorem filter {p : Char → Bool} {letters : Bool} (hp : ∀ c, c.isAlpha = true → p c = letters)
    (h : SameLetters s t) : SameLetters (s.filter p) (t.filter p) :=
  List.rel_filter (fun _ _ hy => Bool.eq_iff_iff.mp (hy.class_eq hp).symm) h

theorem trimBlanks (h : SameLetters s t) : SameLetters (trimBlanks s) (trimBlanks t) := by
  rw [sameLetters_iff] at h ⊢
  rw [← trimBlanks_map_toUpper, h, trimBlanks_map_toUpper]

end SameLetters

end RecordLog.Text
