import RecordLog.Proofs.Number.Numerals
import RecordLog.Proofs.Text.Case
import RecordLog.Proofs.Text.Runs
import RecordLog.Proofs.Types.Written
import RecordLog.Types.Name

/-!
# The written forms of types

A type is written as its name in any case, and its width may follow in parentheses; for strings it
has to, as nothing else tells their width. These are the only texts that are read as types, blanks
around them apart, and what a type is shown as is one of them.
-/

namespace RecordLog

namespace Number

theorem toList_toString (n : Nat) : (toString n).toList = digits n := by
  have hchar : ∀ d : Fin 10, Nat.digitChar d.val = digitChar d.val := by decide
  have hdigits : Nat.toDigits 10 n = digits n := by
    induction n using Nat.strongRecOn with
    | ind n ih =>
      rw [Nat.toDigits_eq_if (by decide), digits]
      split
      · next hn => rw [hchar ⟨n, hn⟩]
      · rw [ih (n / 10) (by omega), hchar ⟨n % 10, Nat.mod_lt n (by decide)⟩]
  exact Nat.toList_repr.trans hdigits

end Number

/-! ## Names -/

namespace Tag

/-- Whether characters are the name of a tag, in any case. The tag of nothing has no name that is
read. -/
def IsNamed (tag : Tag) (name : List Char) : Prop :=
  tag ≠ .none ∧ Text.SameLetters tag.name.toList name

theorem isAlpha_of_mem_name {tag : Tag} : ∀ c ∈ tag.name.toList, c.isAlpha = true := by
  apply List.all_eq_true.mp
  cases tag with
  | integer kind => cases kind <;> decide
  | _ => decide

theorem isTypeName_of_isNamed {tag : Tag} {name : List Char} (h : tag.IsNamed name) :
    DataType.isTypeName name = true := by
  have hne : name ≠ [] := by
    rintro rfl
    have hempty := List.forall₂_nil_right_iff.mp h.2
    cases tag with
    | integer kind => cases kind <;> revert hempty <;> decide
    | _ => revert hempty; decide
  have hletters := h.2.all_class (p := Char.isAlpha) (fun _ hc => hc) isAlpha_of_mem_name
  have hall : name.all (fun c => c.isAlpha || c = '_') = true :=
    List.all_eq_true.mpr fun c hc => by rw [hletters c hc, Bool.true_or]
  simp [DataType.isTypeName, hne, hall]

theorem type?_eq_some_iff {tag : Tag} {t : DataType} :
    tag.type? = some t ↔ t.tag = tag ∧ tag ≠ .string := by
  cases tag <;> cases t <;> simp [type?, DataType.tag, eq_comm]

theorem map_toUpper_name (tag : Tag) : tag.name.toList.map Char.toUpper = tag.name.toList := by
  cases tag with
  | integer kind => cases kind <;> decide
  | _ => decide

theorem ofName?_eq_some_iff {tag : Tag} {name : List Char} :
    ofName? (String.ofList name) = some tag ↔ tag.IsNamed name := by
  have hupper : tag.name = Text.upper (String.ofList name) ↔
      Text.SameLetters tag.name.toList name := by
    rw [Text.sameLetters_iff, map_toUpper_name, Text.upper, String.toList_ofList,
      ← String.toList_inj, String.toList_ofList]
  rw [IsNamed, ← hupper]
  constructor
  · intro h
    simpa using List.find?_some h
  · rintro ⟨hnone, hname⟩
    rw [ofName?, ← hname]
    cases tag with
    | none => exact absurd rfl hnone
    | integer kind => cases kind <;> decide
    | _ => decide

end Tag

namespace DataType

theorem size_lt (t : DataType) : t.size < UInt32.size := by
  cases t with
  | integer kind => cases kind <;> decide
  | string width => exact width.bounded
  | _ => decide

theorem toNat_ofNat_size (t : DataType) : (UInt32.ofNat t.size).toNat = t.size :=
  UInt32.toNat_ofNat_of_lt' t.size_lt

theorem ofTag_tag (t : DataType) : ofTag t.tag (UInt32.ofNat t.size) = .ok t := by
  have hsize := t.toNat_ofNat_size
  cases t with
  | string width =>
    have hwidth : (UInt32.ofNat (string width).size).toNat = width.bytes := hsize
    simp only [ofTag, tag, Tag.type?, hwidth, ofStringWidth, dif_pos width.positive]
  | _ => simp only [ofTag, tag, Tag.type?, hsize, if_true]

theorem of_ofTag {tag : Tag} {size : UInt32} {t : DataType} (h : ofTag tag size = .ok t) :
    t.tag = tag ∧ t.size = size.toNat := by
  cases tag with
  | string =>
    simp only [ofTag, Tag.type?, ofStringWidth] at h
    split at h
    · obtain rfl := Except.ok.inj h
      exact ⟨rfl, rfl⟩
    · cases h
  | _ =>
    simp only [ofTag, Tag.type?] at h
    split at h
    · next hsize =>
      obtain rfl := Except.ok.inj h
      exact ⟨rfl, hsize⟩
    · cases h

theorem ofTag_eq_ok_iff {tag : Tag} {size : UInt32} {t : DataType} :
    ofTag tag size = .ok t ↔ t.tag = tag ∧ t.size = size.toNat := by
  constructor
  · exact of_ofTag
  · rintro ⟨rfl, hsize⟩
    rw [← UInt32.ofNat_toNat (x := size), ← hsize]
    exact ofTag_tag t

/-! ## Names with and without a width -/

/-- Whether characters are a written form of a type: a name of it, with its width in parentheses, or
alone if it is no type of strings. There may be zeros in front of the width. -/
inductive IsWritten : List Char → DataType → Prop where
  | name {name : List Char} {t : DataType} (hname : t.tag.IsNamed name) (hfixed : t.tag ≠ .string) :
      IsWritten name t
  | width {name digits : List Char} {t : DataType} (hname : t.tag.IsNamed name)
      (hdigits : Number.Digits digits) (hne : digits ≠ [])
      (hvalue : Number.digitsValue digits = t.size) :
      IsWritten (name ++ '(' :: (digits ++ [')'])) t

variable {text : String} {t : DataType} {chars name rest : List Char} {size : UInt32}

theorem readWidth?_eq_some_iff :
    readWidth? rest = some size ↔ ∃ digits, rest = digits ++ [')'] ∧ Number.Digits digits ∧
      digits ≠ [] ∧ Number.digitsValue digits = size.toNat := by
  constructor
  · intro h
    simp only [readWidth?] at h
    split at h
    · next hform =>
      obtain ⟨hlast, hne, hdigits⟩ := hform
      split at h
      · next hlt =>
        obtain rfl := Option.some.inj h
        refine ⟨rest.dropLast, ?_, List.all_eq_true.mp hdigits, hne, ?_⟩
        · exact (List.dropLast_append_getLast? _ hlast).symm
        · rw [UInt32.toNat_ofNat_of_lt' hlt]
      · cases h
    · cases h
  · rintro ⟨digits, rfl, hdigits, hne, hvalue⟩
    have hlast : (digits ++ [')']).getLast? = some ')' := by simp
    have hall : digits.all Char.isDigit = true := List.all_eq_true.mpr hdigits
    simp only [readWidth?, List.dropLast_concat, hlast, hne, hall, hvalue, size.toNat_lt, ne_eq,
      not_false_eq_true, and_self, if_true, UInt32.ofNat_toNat]

theorem ne_paren_of_isTypeName (h : isTypeName name = true) :
    ∀ c ∈ name, decide (c ≠ '(') = true := by
  intro c hc
  have hall := (Bool.and_eq_true_iff.mp h).2
  have hletter := List.all_eq_true.mp hall c hc
  apply decide_eq_true
  rintro rfl
  cases hletter

/-- A name ends at the first parenthesis, and what follows it is a width. -/
theorem split?_eq_some_iff {width : Option UInt32} :
    split? chars = some (name, width) ↔ isTypeName name = true ∧
      (chars = name ∧ width = .none ∨
        ∃ rest size, chars = name ++ '(' :: rest ∧ readWidth? rest = some size ∧
          width = some size) := by
  constructor
  · intro h
    have hparts : chars.takeWhile (· ≠ '(') ++ chars.dropWhile (· ≠ '(') = chars :=
      List.takeWhile_append_dropWhile
    simp only [split?] at h
    split at h
    · next hname =>
      split at h
      · next hrest =>
        rw [hrest, List.append_nil] at hparts
        obtain ⟨rfl, rfl⟩ := Prod.mk.inj (Option.some.inj h)
        exact ⟨hname, .inl ⟨hparts.symm, rfl⟩⟩
      · next c rest hrest =>
        obtain ⟨size, hsize, heq⟩ := Option.map_eq_some_iff.mp h
        obtain ⟨rfl, rfl⟩ := Prod.mk.inj heq
        have hparen : c = '(' := by
          have hhead := List.head?_dropWhile_not (· ≠ '(') chars
          rw [hrest] at hhead
          simpa using hhead
        rw [hrest, hparen] at hparts
        exact ⟨hname, .inr ⟨rest, size, hparts.symm, hsize, rfl⟩⟩
    · cases h
  · rintro ⟨hname, ⟨rfl, rfl⟩ | ⟨rest, size, rfl, hsize, rfl⟩⟩
    · obtain ⟨htake, hdrop⟩ := takeWhile_run (ne_paren_of_isTypeName hname) [] rfl
      rw [List.append_nil] at htake hdrop
      simp only [split?, htake, hdrop, hname, if_true]
    · obtain ⟨htake, hdrop⟩ := takeWhile_run (ne_paren_of_isTypeName hname) ('(' :: rest) rfl
      simp only [split?, htake, hdrop, hname, if_true, hsize, Option.map_some]

theorem named_none_eq_ok_iff :
    named text name .none = .ok t ↔ t.tag.IsNamed name ∧ t.tag ≠ .string := by
  unfold named
  constructor
  · intro h
    split at h
    · cases h
    · next heq => cases heq
    · next tag htag _ =>
      split at h
      · next type htype =>
        obtain rfl := Except.ok.inj h
        obtain ⟨rfl, hfixed⟩ := Tag.type?_eq_some_iff.mp htype
        exact ⟨Tag.ofName?_eq_some_iff.mp htag, hfixed⟩
      · cases h
  · rintro ⟨hname, hfixed⟩
    simp only [Tag.ofName?_eq_some_iff.mpr hname, Tag.type?_eq_some_iff.mpr ⟨rfl, hfixed⟩]

theorem named_some_eq_ok_iff :
    named text name (some size) = .ok t ↔ t.tag.IsNamed name ∧ t.size = size.toNat := by
  unfold named
  constructor
  · intro h
    split at h
    · cases h
    · next tag size' htag heq =>
      obtain rfl := Option.some.inj heq
      obtain ⟨rfl, hsize⟩ := ofTag_eq_ok_iff.mp h
      exact ⟨Tag.ofName?_eq_some_iff.mp htag, hsize⟩
    · next heq => cases heq
  · rintro ⟨hname, hsize⟩
    simp only [Tag.ofName?_eq_some_iff.mpr hname, ofTag_eq_ok_iff.mpr ⟨rfl, hsize⟩]

/-- A text is read as a type just if it is a written form of it, with blanks around it maybe. -/
theorem ofText_eq_ok_iff : ofText text = .ok t ↔ IsWritten (Text.trim text).toList t := by
  have hread : ofText text = .ok t ↔ ∃ name width,
      split? (Text.trim text).toList = some (name, width) ∧
        named (Text.trim text) name width = .ok t := by
    simp only [ofText]
    split
    · next hsplit => simp [hsplit]
    · next name width hsplit => simp [hsplit]
  rw [hread]
  constructor
  · rintro ⟨name, width, hsplit, hnamed⟩
    obtain ⟨-, ⟨hname, rfl⟩ | ⟨rest, size, hname, hwidth, rfl⟩⟩ := split?_eq_some_iff.mp hsplit
    · obtain ⟨htag, hfixed⟩ := named_none_eq_ok_iff.mp hnamed
      rw [hname]
      exact .name htag hfixed
    · obtain ⟨htag, hsize⟩ := named_some_eq_ok_iff.mp hnamed
      obtain ⟨digits, rfl, hdigits, hne, hvalue⟩ := readWidth?_eq_some_iff.mp hwidth
      rw [hname]
      exact .width htag hdigits hne (hvalue.trans hsize.symm)
  · intro h
    generalize hchars : (Text.trim text).toList = chars at h
    cases h with
    | name hname hfixed =>
      refine ⟨_, .none, ?_, named_none_eq_ok_iff.mpr ⟨hname, hfixed⟩⟩
      exact split?_eq_some_iff.mpr ⟨Tag.isTypeName_of_isNamed hname, .inl ⟨rfl, rfl⟩⟩
    | width hname hdigits hne hvalue =>
      have hsize := t.toNat_ofNat_size
      have hwidth := readWidth?_eq_some_iff.mpr
        ⟨_, rfl, hdigits, hne, hvalue.trans hsize.symm⟩
      refine ⟨_, _, ?_, named_some_eq_ok_iff.mpr ⟨hname, hsize.symm⟩⟩
      exact split?_eq_some_iff.mpr
        ⟨Tag.isTypeName_of_isNamed hname, .inr ⟨_, _, rfl, hwidth, rfl⟩⟩

/-! ## Types as they are shown -/

/-- A type of strings is written as its name, with the digits of its width in parentheses. -/
theorem toList_text_string (width : StringWidth) :
    (string width).text.toList =
      "STRING".toList ++ '(' :: (Number.digits width.bytes ++ [')']) := by
  have htext : (string width).text = "STRING(" ++ toString width.bytes ++ ")" := rfl
  have hopen : "STRING(".toList = "STRING".toList ++ ['('] := rfl
  rw [htext, String.toList_append, String.toList_append, Number.toList_toString, hopen,
    List.append_assoc, List.append_assoc]
  rfl

theorem trim_text (t : DataType) : Text.trim t.text = t.text := by
  cases t with
  | integer kind => cases kind <;> exact Text.trim_name rfl
  | string width =>
    rw [← String.ofList_toList (s := (string width).text)]
    apply Text.trim_ofList
    rw [toList_text_string]
    intro c hc
    simp only [List.mem_append, List.mem_cons, List.not_mem_nil, or_false] at hc
    rcases hc with hname | rfl | hdigit | rfl
    · exact Text.isBlank_of_mem rfl c hname
    · decide
    · exact Text.isBlank_of_isDigit (Number.isDigit_of_mem_digits hdigit)
    · decide
  | _ => exact Text.trim_name rfl

/-- What a type is shown as is one of its written forms. -/
theorem isWritten_text {t : DataType} (h : t ≠ .none) : IsWritten t.text.toList t := by
  have hname (tag : Tag) (htag : tag ≠ .none) : tag.IsNamed tag.name.toList :=
    ⟨htag, Text.sameLetters_iff.mpr rfl⟩
  cases t with
  | none => exact absurd rfl h
  | string width =>
    rw [toList_text_string]
    exact .width (hname .string (by decide)) (fun _ hc => Number.isDigit_of_mem_digits hc)
      (Number.digits_ne_nil _) (Number.digitsValue_digits _)
  | bool => exact .name (hname .bool (by decide)) (by decide)
  | integer kind => exact .name (hname (.integer kind) nofun) nofun
  | float => exact .name (hname .float (by decide)) (by decide)
  | double => exact .name (hname .double (by decide)) (by decide)

/-- A type is read from what it is shown as. -/
theorem ofText_text {t : DataType} (h : t ≠ .none) : ofText t.text = .ok t := by
  rw [ofText_eq_ok_iff, trim_text]
  exact isWritten_text h

/-- Just the written forms of types are read as types, with blanks around them maybe, and any other
text is refused as none. What a type is shown as is read as the type, but for the type of
nothing. -/
theorem ofText_reads_written_forms :
    (∀ text t, ofText text = .ok t ↔ IsWritten (Text.trim text).toList t) ∧
    (∀ text, (∃ cause, ofText text = .error cause ∧
        (Fault.type cause).message = "Invalid type: " ++ cause.message) ↔
      ¬ ∃ t, IsWritten (Text.trim text).toList t) ∧
    ∀ t, t ≠ .none → ofText t.text = .ok t := by
  refine ⟨fun text t => ofText_eq_ok_iff, ?_, fun t h => ofText_text h⟩
  intro text
  simp only [← ofText_eq_ok_iff]
  cases ofText text with
  | ok t => simp
  | error cause =>
    refine iff_of_true ⟨cause, rfl, rfl⟩ ?_
    rintro ⟨t, h⟩
    cases h

/-- Blanks, small letters and zeros in front of a width; and a width that is not the type's. -/
theorem ofText_reads_written_forms_of_widths :
    let width : StringWidth := ⟨16, by decide, by decide⟩
    ofText " String(0016)\n" = .ok (string width) ∧ (string width ≠ none ∧
      ofText (string width).text = .ok (string width)) ∧ ¬ ∃ t, IsWritten "INT(8)".toList t := by
  intro width
  obtain ⟨haccepted, hrefused, hshown⟩ := ofText_reads_written_forms
  refine ⟨?_, ⟨by decide, hshown _ (by decide)⟩, ?_⟩
  · have hname : Tag.IsNamed .string "String".toList := ⟨by decide, by decide⟩
    have hform : (Text.trim " String(0016)\n").toList =
        "String".toList ++ '(' :: ("0016".toList ++ [')']) := by decide
    rw [haccepted, hform]
    exact .width hname (by decide) (by decide) (by decide)
  · have htrim : Text.trim "INT(8)" = "INT(8)" := by decide
    rw [← htrim]
    exact (hrefused "INT(8)").mp ⟨.wrongWidth (.integer .int) 4 8, by decide, rfl⟩

end DataType

end RecordLog
