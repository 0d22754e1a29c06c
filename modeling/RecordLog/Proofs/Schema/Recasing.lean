import RecordLog.Proofs.Schema.Rendering

/-!
# Declarations in any case

Two declarations that differ in the case of letters only make the same schema. The grammar asks of a
letter only that it is one, so both texts have the same parts at the same places, and two readers
that go over them stay abreast. What they read differs in the case of names at most, which a builder
does not tell apart either.
-/

namespace RecordLog

open Text (SameLetters)

/-! ## Types -/

theorem Number.isAlpha_of_isDigit {c : Char} (h : c.isDigit = true) : c.isAlpha = false := by
  have hall : ∀ d : Fin 10, (digitChar d.val).isAlpha = false := by decide
  obtain ⟨d, rfl⟩ := exists_eq_digitChar h
  exact hall d

theorem Tag.IsNamed.recase {tag : Tag} {name name' : List Char} (h : tag.IsNamed name)
    (hsame : SameLetters name name') : tag.IsNamed name' := ⟨h.1, h.2.trans hsame⟩

namespace DataType

theorem IsWritten.recase {chars chars' : List Char} {t : DataType} (h : IsWritten chars t)
    (hsame : SameLetters chars chars') : IsWritten chars' t := by
  cases h with
  | name hname hfixed => exact .name (hname.recase hsame) hfixed
  | width hname hdigits hne hvalue =>
    obtain ⟨name', behind, rfl, hname', hbehind⟩ := hsame.of_append
    obtain ⟨rest, rfl, hrest⟩ := hbehind.of_cons
    -- There are no letters in a width, so it is the same in both.
    obtain ⟨digits', close, rfl, hdigits', hclose⟩ := hrest.of_append
    obtain rfl := hdigits'.eq_of_not_isAlpha fun x hx => Number.isAlpha_of_isDigit (hdigits x hx)
    obtain rfl := hclose.eq_of_not_isAlpha (List.forall_mem_singleton.mpr rfl)
    exact .width (hname.recase hname') hdigits hne hvalue

theorem ofText_recase {text text' : String} {t : DataType} (h : ofText text = .ok t)
    (hsame : SameLetters text.toList text'.toList) : ofText text' = .ok t := by
  rw [ofText_eq_ok_iff, Text.trim, String.toList_ofList] at h ⊢
  exact h.recase hsame.trimBlanks

end DataType

namespace Declaration

open Text.Utf8 (IsAscii)

/-! ## The language -/

section Classes

variable {x : Char}

theorem isAsciiLetter_eq (x : Char) : isAsciiLetter x = x.isAlpha := by
  rw [Bool.eq_iff_iff, Text.isAlpha_iff, isAsciiLetter, Bool.or_eq_true, Bool.and_eq_true,
    Bool.and_eq_true]
  simp only [decide_eq_true_eq]
  exact Iff.rfl

theorem startsName_of_isAlpha (h : x.isAlpha = true) : startsName x = true := by
  rw [startsName, isAsciiLetter_eq, h, Bool.true_or]

theorem continuesName_of_isAlpha (h : x.isAlpha = true) : continuesName x = true :=
  continuesName_of_startsName (startsName_of_isAlpha h)

theorem isSpace_of_isAlpha (h : x.isAlpha = true) : isSpace x = false :=
  isSpace_of_startsName (startsName_of_isAlpha h)

theorem standsInType_of_isAlpha (h : x.isAlpha = true) : standsInType x = true := by
  simp only [standsInType, spellsType, isAsciiLetter_eq, h, Bool.true_or]

end Classes

/-- Whether two columns are declared alike, but for the case of their names. -/
def SameItem (item item' : Item) : Prop :=
  SameLetters item.1.toList item'.1.toList ∧ item'.2 = item.2

variable {chars chars' : List Char} {item : Item} {items : List Item}

theorem Spaces.recase (h : Spaces chars) (hsame : SameLetters chars chars') : Spaces chars' :=
  hsame.all_class (fun _ => isSpace_of_isAlpha) h

theorem IsName.recase (h : IsName chars) (hsame : SameLetters chars chars') : IsName chars' := by
  obtain ⟨first, more, rfl, hfirst, hmore⟩ := h
  obtain ⟨first', more', hsame₁, hsame₂, rfl⟩ := List.forall₂_cons_left_iff.mp hsame
  refine ⟨first', more', rfl, ?_, ?_⟩
  · rw [hsame₁.class_eq (fun _ => startsName_of_isAlpha)]
    exact hfirst
  · exact SameLetters.all_class (fun _ => continuesName_of_isAlpha) hsame₂ hmore

theorem squeeze_recase (h : SameLetters chars chars') :
    SameLetters (squeeze chars) (squeeze chars') :=
  h.filter (fun x hx => by rw [isSpace_of_isAlpha hx])

theorem IsType.recase {type : DataType} (h : IsType chars type)
    (hsame : SameLetters chars chars') : IsType chars' type := by
  obtain ⟨hstands, hne, htype⟩ := h
  have hsqueeze := squeeze_recase hsame
  refine ⟨hsame.all_class (fun _ => standsInType_of_isAlpha) hstands, ?_, ?_⟩
  · intro hnil
    rw [hnil] at hsqueeze
    exact hne (List.forall₂_nil_right_iff.mp hsqueeze)
  · apply DataType.ofText_recase htype
    rw [String.toList_ofList, String.toList_ofList]
    exact hsqueeze

theorem IsColumn.recase (h : IsColumn chars item) (hsame : SameLetters chars chars') :
    ∃ item', IsColumn chars' item' ∧ SameItem item item' := by
  obtain @⟨before, key, between, token, after, type, hbefore, hkey, hbetween, htoken, hafter⟩ := h
  obtain ⟨front, after', rfl, hfront, hafter'⟩ := hsame.of_append
  obtain ⟨named, typed, rfl, hnamed, htyped⟩ := hfront.of_append
  obtain ⟨token', rfl, htoken'⟩ := htyped.of_cons
  obtain ⟨opened, between', rfl, hopened, hbetween'⟩ := hnamed.of_append
  obtain ⟨before', key', rfl, hbefore', hkey'⟩ := hopened.of_append
  refine ⟨(String.ofList key', type), ?_, ?_, rfl⟩
  · exact .column (hbefore.recase hbefore') (hkey.recase hkey') (hbetween.recase hbetween')
      (htoken.recase htoken') (hafter.recase hafter')
  · rw [String.toList_ofList, String.toList_ofList]
    exact hkey'

theorem AreColumns.recase (h : AreColumns chars items) (hsame : SameLetters chars chars') :
    ∃ items', AreColumns chars' items' ∧ List.Forall₂ SameItem items items' := by
  induction h generalizing chars' with
  | last hcolumn =>
    obtain ⟨item', hcolumn', hitem⟩ := hcolumn.recase hsame
    exact ⟨[item'], .last hcolumn', .cons hitem .nil⟩
  | more hcolumn hrest ih =>
    obtain ⟨front, behind, rfl, hfront, hbehind⟩ := hsame.of_append
    obtain ⟨rest', rfl, hrest'⟩ := hbehind.of_cons
    obtain ⟨item', hcolumn', hitem⟩ := hcolumn.recase hfront
    obtain ⟨items', hcolumns', hitems⟩ := ih hrest'
    exact ⟨item' :: items', .more hcolumn' hcolumns', .cons hitem hitems⟩

/-! ## Two readers -/

/-- Whether the same is ahead of two places, but for the case of letters. -/
def Abreast (c c' : Cursor) : Prop :=
  ∃ chars chars', c.At chars ∧ c'.At chars' ∧ SameLetters chars chars'

namespace Abreast

variable {c c' d : Cursor} {token : Char}

theorem expect (h : Abreast c c') (hread : Declaration.expect token c = .ok d)
    (htoken : IsAscii token := by decide) (hspace : isSpace token = false := by decide)
    (hletter : token.isAlpha = false := by decide) :
    ∃ d', Declaration.expect token c' = .ok d' ∧ Abreast d d' := by
  obtain ⟨chars, chars', hc, hc', hsame⟩ := h
  obtain ⟨before, rest, hbefore, rfl, hd⟩ := expect_sound hc hread htoken
  obtain ⟨before', behind, rfl, hbefore', hbehind⟩ := hsame.of_append
  obtain ⟨rest', rfl, hrest⟩ := hbehind.of_cons hletter
  obtain ⟨d', hread', hd'⟩ := expect_complete (hbefore.recase hbefore') hc' htoken hspace
  exact ⟨d', hread', rest, rest', hd, hd', hrest⟩

theorem readItems (h : Abreast c c') (hread : Declaration.readItems c = .ok (items, d)) :
    ∃ items' d', Declaration.readItems c' = .ok (items', d') ∧
      List.Forall₂ SameItem items items' ∧ Abreast d d' := by
  obtain ⟨chars, chars', hc, hc', hsame⟩ := h
  obtain ⟨body, rest, hbody, rfl, hd⟩ := readItems_sound hc hread
  obtain ⟨body', behind, rfl, hbody', hbehind⟩ := hsame.of_append
  obtain ⟨rest', rfl, hrest⟩ := hbehind.of_cons
  obtain ⟨items', hcolumns, hitems⟩ := hbody.recase hbody'
  obtain ⟨d', hread', hd'⟩ := readItems_complete hcolumns hc'
  exact ⟨items', d', hread', hitems, rest, rest', hd, hd', hrest⟩

/-- Both readers are done at the same time. -/
theorem skip_rest (h : Abreast c c') (hend : c.skip.rest = []) : c'.skip.rest = [] := by
  obtain ⟨chars, chars', hc, hc', hsame⟩ := h
  have hnone : chars.dropWhile isSpace = [] :=
    Text.Utf8.flatMap_eq_nil_iff.mp (hc.skip.symm.trans hend)
  have hspaces : Spaces chars := List.dropWhile_eq_nil_iff.mp hnone
  rw [hc'.skip, List.dropWhile_eq_nil_iff.mpr (hspaces.recase hsame)]
  rfl

end Abreast

theorem parse_recase {text text' : String} (h : SameLetters text.toList text'.toList)
    (hread : parse text = .ok items) :
    ∃ items', parse text' = .ok items' ∧ List.Forall₂ SameItem items items' := by
  have hstart : Abreast (Cursor.ofText text) (Cursor.ofText text') := ⟨_, _, rfl, rfl, h⟩
  unfold parse at hread
  split at hread
  · cases hread
  · next c hopen =>
    obtain ⟨c', hopen', hc⟩ := hstart.expect hopen
    split at hread
    · cases hread
    · next found d hitems =>
      obtain ⟨items', d', hitems', hsame, hd⟩ := hc.readItems hitems
      split at hread
      · next hend =>
        obtain rfl := Except.ok.inj hread
        refine ⟨items', ?_, hsame⟩
        simp only [parse, hopen', hitems', if_pos (hd.skip_rest hend)]
      · cases hread

end Declaration

/-! ## Builders -/

theorem keptName_recase {name name' : String} (h : SameLetters name.toList name'.toList) :
    keptName name' = keptName name := by
  simp only [keptName, Text.upper, Text.trim, String.toList_ofList,
    Text.sameLetters_iff.mp h.trimBlanks]

/-- Of the name that is asked for, only what is kept of it counts. -/
theorem Added.of_keptName {b grown : Builder} {type : DataType} {name name' : String}
    {bounds : Option Bounds} (h : Added b ⟨type, name, bounds⟩ grown)
    (hname : keptName name' = keptName name) : Added b ⟨type, name', bounds⟩ grown := by
  cases h with
  | timestamp hstamp htype => exact .timestamp (hname.trans hstamp) htype
  | column hother hnonempty hfree htype =>
    have hnext : b.next type (Text.trim name) bounds htype =
        b.next type (Text.trim name') bounds htype := by
      have hupper : Text.upper (Text.trim name') = Text.upper (Text.trim name) := hname
      rw [Builder.next, Builder.next, hupper]
    have hnonempty' : Text.trim name' ≠ "" := by
      intro hempty
      rw [keptName, Text.upper_eq_empty_iff.mpr hempty] at hname
      exact hnonempty (Text.upper_eq_empty_iff.mp hname.symm)
    rw [hnext]
    refine .column (a := ⟨type, name', bounds⟩) ?_ hnonempty' ?_ htype
    · rw [hname]
      exact hother
    · rw [hname]
      exact hfree

theorem Builder.addItems_recase {b grown : Builder} {items items' : List Declaration.Item}
    (hsame : List.Forall₂ Declaration.SameItem items items') (h : b.addItems items = .ok grown) :
    b.addItems items' = .ok grown := by
  induction hsame generalizing b with
  | nil => exact h
  | @cons item item' rest rest' hitem hrest ih =>
    obtain ⟨name, type⟩ := item
    obtain ⟨name', type'⟩ := item'
    obtain ⟨hname, rfl⟩ : SameLetters name.toList name'.toList ∧ type' = type := hitem
    rw [addItems] at h ⊢
    split at h
    · next next hadd =>
      have hadded := (add_eq_ok_iff.mp hadd).of_keptName (keptName_recase hname)
      rw [add_eq_ok_iff.mpr hadded]
      exact ih h
    · cases h

namespace Schema

theorem parse_recase {text text' : String} {s : Schema}
    (h : SameLetters text.toList text'.toList) (hread : parse text = .ok s) :
    parse text' = .ok s := by
  obtain ⟨items, b, hitems, hadded, hcolumns⟩ := parse_succeeds_iff.mp hread
  obtain ⟨items', hitems', hsame⟩ := Declaration.parse_recase h hitems
  exact parse_succeeds_iff.mpr ⟨items', b, hitems', Builder.addItems_recase hsame hadded, hcolumns⟩

/-- Two declarations that differ in the case of letters only are read as the same schema, or both of
them are refused. -/
theorem parse_of_sameLetters (text text' : String) (h : SameLetters text.toList text'.toList)
    (s : Schema) : parse text = .ok s ↔ parse text' = .ok s :=
  ⟨parse_recase h, parse_recase h.symm⟩

/-- Names and types in another case, the timestamp among them. -/
theorem parse_of_sameLetters_of_mixed_case :
    let text := "\x7bTIMESTAMP:ULONG,MSG:STRING(16),V_1:SHORT\x7d"
    let text' := "\x7btimeStamp:uLong,msg:String(16),v_1:SHORT\x7d"
    let msg : Column := ⟨1, 8, .string ⟨16, by decide, by decide⟩, "MSG", none, by decide⟩
    let v : Column := ⟨2, 24, .integer .short, "V_1", none, by decide⟩
    SameLetters text.toList text'.toList ∧ ∃ s, s.columns = [.timestamp, msg, v] ∧
      parse text = .ok s ∧ parse text' = .ok s := by
  intro text text' msg v
  let s : Schema := ⟨.timestamp, [msg, v], rfl, rfl, rfl, rfl, rfl, rfl, rfl, rfl, trivial⟩
  have hsame : SameLetters text.toList text'.toList := by decide
  have htext : s.declaration = text := by decide
  have hnames : ∀ c ∈ s.columns, Declaration.IsName c.name.toList := by decide
  have hread : Declaration.parse text = .ok (s.columns.map Column.item) := by
    rw [← htext]
    exact s.rendering_declaration.parse hnames
  have hschema : parse text = .ok s := parse_of_addItems hread (by decide)
  exact ⟨hsame, s, rfl, hschema, (parse_of_sameLetters text text' hsame s).mp hschema⟩

end Schema

end RecordLog
