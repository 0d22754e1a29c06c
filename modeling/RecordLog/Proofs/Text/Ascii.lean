import Mathlib.Data.List.TakeWhile
import RecordLog.Text.Utf8

/-!
# ASCII characters in encoded text

An ASCII character is encoded as one byte, and no byte of another character looks like one. So a
reader that goes through encoded text and asks of each byte only whether it belongs to some class
of ASCII characters stops where it would stop among the characters.
-/

namespace RecordLog.Text.Utf8

/-- Whether a character is encoded as one byte. -/
def IsAscii (x : Char) : Prop := x.toNat < 0x80

instance (x : Char) : Decidable (IsAscii x) := inferInstanceAs (Decidable (_ < _))

theorem toNat_byte {x : Char} (h : IsAscii x) : (UInt8.ofNat x.toNat).toNat = x.toNat := by
  have hlt : x.toNat < 0x80 := h
  rw [UInt8.toNat_ofNat']
  omega

theorem byte_inj {x y : Char} (hx : IsAscii x) (hy : IsAscii y) :
    UInt8.ofNat x.toNat = UInt8.ofNat y.toNat ↔ x = y := by
  rw [← UInt8.toNat_inj, toNat_byte hx, toNat_byte hy, Char.toNat_inj]

theorem encodeChar_of_isAscii {x : Char} (h : IsAscii x) :
    encodeChar x = [UInt8.ofNat x.toNat] := if_pos h

theorem encodeChar_of_not_isAscii {x : Char} (h : ¬ IsAscii x) :
    ∃ b more, encodeChar x = b :: more ∧ 0x80 ≤ b.toNat ∧ more ≠ [] := by
  have hvalid : x.toNat < 0xD800 ∨ 0xDFFF < x.toNat ∧ x.toNat < 0x110000 := x.valid
  have hfirst {n : Nat} (hlow : 0x80 ≤ n) (hhigh : n < 0x100) : 0x80 ≤ (UInt8.ofNat n).toNat := by
    rw [UInt8.toNat_ofNat', Nat.mod_eq_of_lt hhigh]
    exact hlow
  rw [encodeChar]
  simp only [if_neg (show ¬ x.toNat < 0x80 from h)]
  split
  · exact ⟨_, _, rfl, hfirst (by omega) (by omega), List.cons_ne_nil _ _⟩
  split
  · exact ⟨_, _, rfl, hfirst (by omega) (by omega), List.cons_ne_nil _ _⟩
  · exact ⟨_, _, rfl, hfirst (by omega) (by omega), List.cons_ne_nil _ _⟩

/-- A class of bytes that picks the characters of a class out of encoded text. -/
def Picks (p : UInt8 → Bool) (q : Char → Bool) : Prop :=
  ∀ x, ∃ b more, encodeChar x = b :: more ∧ p b = q x ∧ (q x = true → more = [])

namespace Picks

variable {p : UInt8 → Bool} {q : Char → Bool}

theorem isAscii (h : Picks p q) {x : Char} (hx : q x = true) : IsAscii x := by
  obtain ⟨b, more, hencode, -, hmore⟩ := h x
  by_contra hbeyond
  obtain ⟨b', more', hencode', -, hne⟩ := encodeChar_of_not_isAscii hbeyond
  rw [hencode] at hencode'
  obtain ⟨-, rfl⟩ := List.cons.inj hencode'
  exact hne (hmore hx)

/-- It is enough to look at the ASCII characters, if there is no member beyond them. -/
theorem of_isAscii (hp : ∀ b, p b = true → b.toNat < 0x80) (hq : ∀ x, q x = true → IsAscii x)
    (h : ∀ x, IsAscii x → p (UInt8.ofNat x.toNat) = q x) : Picks p q := by
  intro x
  by_cases hx : IsAscii x
  · exact ⟨_, [], encodeChar_of_isAscii hx, h x hx, fun _ => rfl⟩
  · obtain ⟨b, more, hencode, hb, -⟩ := encodeChar_of_not_isAscii hx
    have hbyte : p b = false := by
      apply Bool.eq_false_iff.mpr
      intro hpick
      exact absurd (hp b hpick) (Nat.not_lt.mpr hb)
    have hchar : q x = false := Bool.eq_false_iff.mpr (mt (hq x) hx)
    refine ⟨b, more, hencode, hbyte.trans hchar.symm, ?_⟩
    intro hpick
    rw [hchar] at hpick
    cases hpick

/-- A range of bytes picks a range of characters. -/
theorem between (low high : Char) (hlow : IsAscii low := by decide)
    (hhigh : IsAscii high := by decide) :
    Picks (fun b => UInt8.ofNat low.toNat ≤ b && b ≤ UInt8.ofNat high.toNat)
      (fun x => low ≤ x && x ≤ high) := by
  have hle (x y : Char) : x ≤ y ↔ x.toNat ≤ y.toNat := Iff.rfl
  have hlimit : high.toNat < 0x80 := hhigh
  apply of_isAscii
  · intro b hb
    simp only [Bool.and_eq_true, decide_eq_true_eq, UInt8.le_iff_toNat_le, toNat_byte hhigh] at hb
    omega
  · intro x hx
    simp only [Bool.and_eq_true, decide_eq_true_eq, hle] at hx
    unfold IsAscii
    omega
  · intro x hx
    simp only [UInt8.le_iff_toNat_le, toNat_byte hlow, toNat_byte hhigh, toNat_byte hx, hle]

theorem single (token : Char) (htoken : IsAscii token := by decide) :
    Picks (fun b => b == UInt8.ofNat token.toNat) (fun x => x = token) := by
  apply of_isAscii
  · intro b hb
    rw [eq_of_beq hb, toNat_byte htoken]
    exact htoken
  · intro x hx
    rw [of_decide_eq_true hx]
    exact htoken
  · intro x hx
    rw [Bool.eq_iff_iff, beq_iff_eq, decide_eq_true_eq]
    exact byte_inj hx htoken

theorem or {p' : UInt8 → Bool} {q' : Char → Bool} (h : Picks p q) (h' : Picks p' q') :
    Picks (fun b => p b || p' b) (fun x => q x || q' x) := by
  intro x
  obtain ⟨b, more, hencode, hpick, hmore⟩ := h x
  obtain ⟨b', more', hencode', hpick', hmore'⟩ := h' x
  rw [hencode] at hencode'
  obtain ⟨rfl, rfl⟩ := List.cons.inj hencode'
  refine ⟨b, more, hencode, by simp only [hpick, hpick'], ?_⟩
  intro hx
  rcases Bool.or_eq_true_iff.mp hx with hx | hx
  · exact hmore hx
  · exact hmore' hx

theorem encodeChar_eq (h : Picks p q) {x : Char} (hx : q x = true) :
    ∃ b, encodeChar x = [b] ∧ p b = true := by
  obtain ⟨b, more, hencode, hpick, hmore⟩ := h x
  rw [hmore hx] at hencode
  exact ⟨b, hencode, hpick.trans hx⟩

theorem takeWhile (h : Picks p q) (chars : List Char) :
    (chars.flatMap encodeChar).takeWhile p = (chars.takeWhile q).flatMap encodeChar := by
  induction chars with
  | nil => rfl
  | cons x rest ih =>
    cases hx : q x with
    | true =>
      obtain ⟨b, hencode, hb⟩ := h.encodeChar_eq hx
      rw [List.takeWhile_cons_of_pos hx, List.flatMap_cons, List.flatMap_cons, hencode,
        List.singleton_append, List.takeWhile_cons_of_pos hb, ih, List.singleton_append]
    | false =>
      obtain ⟨b, more, hencode, hpick, -⟩ := h x
      have hb : ¬ p b = true := by
        rw [hpick, hx]
        exact Bool.false_ne_true
      have hnone : ¬ q x = true := by
        rw [hx]
        exact Bool.false_ne_true
      rw [List.takeWhile_cons_of_neg hnone, List.flatMap_cons, hencode, List.cons_append,
        List.takeWhile_cons_of_neg hb]
      rfl

theorem dropWhile (h : Picks p q) (chars : List Char) :
    (chars.flatMap encodeChar).dropWhile p = (chars.dropWhile q).flatMap encodeChar := by
  -- Both sides go on behind the same characters, so what they go on with is the same.
  have hparts : (chars.takeWhile q).flatMap encodeChar ++
      (chars.flatMap encodeChar).dropWhile p =
        (chars.takeWhile q).flatMap encodeChar ++ (chars.dropWhile q).flatMap encodeChar := by
    rw [← h.takeWhile, List.takeWhile_append_dropWhile, h.takeWhile, ← List.flatMap_append,
      List.takeWhile_append_dropWhile]
  exact List.append_cancel_left hparts

theorem filter (h : Picks p q) {chars : List Char} (hascii : ∀ x ∈ chars, IsAscii x) :
    (chars.flatMap encodeChar).filter p = (chars.filter q).flatMap encodeChar := by
  induction chars with
  | nil => rfl
  | cons x rest ih =>
    obtain ⟨b, more, hencode, hpick, -⟩ := h x
    have hone : encodeChar x = [b] := by
      have hx := encodeChar_of_isAscii (hascii x List.mem_cons_self)
      rw [hencode] at hx
      rw [hencode, (List.cons.inj hx).2]
    have hrest := ih fun y hy => hascii y (List.mem_cons_of_mem x hy)
    rw [List.flatMap_cons, hone, List.singleton_append, List.filter_cons, List.filter_cons, hpick,
      hrest]
    split
    · rw [List.flatMap_cons, hone, List.singleton_append]
    · rfl

end Picks

/-- An ASCII character is found in front of encoded text just if it is the first character. -/
theorem flatMap_eq_cons_iff {token : Char} (htoken : IsAscii token) {chars : List Char}
    {more : Bytes} :
    chars.flatMap encodeChar = UInt8.ofNat token.toNat :: more ↔
      ∃ rest, chars = token :: rest ∧ more = rest.flatMap encodeChar := by
  constructor
  · intro h
    cases chars with
    | nil => cases h
    | cons x rest =>
      obtain ⟨b, tail, hencode, hpick, htail⟩ := Picks.single token htoken x
      rw [List.flatMap_cons, hencode, List.cons_append] at h
      obtain ⟨rfl, hmore⟩ := List.cons.inj h
      have hx : x = token := by simpa using hpick.symm
      rw [htail (by simp [hx]), List.nil_append] at hmore
      exact ⟨rest, by rw [hx], hmore.symm⟩
  · rintro ⟨rest, rfl, rfl⟩
    rw [List.flatMap_cons, encodeChar_of_isAscii htoken]
    rfl

theorem flatMap_eq_nil_iff {chars : List Char} : chars.flatMap encodeChar = [] ↔ chars = [] := by
  cases chars with
  | nil => simp
  | cons x rest =>
    have hne : encodeChar x ≠ [] := by
      by_cases hx : IsAscii x
      · rw [encodeChar_of_isAscii hx]
        exact List.cons_ne_nil _ _
      · obtain ⟨b, more, hencode, -⟩ := encodeChar_of_not_isAscii hx
        rw [hencode]
        exact List.cons_ne_nil _ _
    simp [hne]

end RecordLog.Text.Utf8
