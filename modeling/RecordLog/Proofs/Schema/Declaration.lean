import RecordLog.Proofs.Schema.Grammar
import RecordLog.Proofs.Text.Runs

/-!
# Reading declarations

The reader accepts just the texts that declare something, and gives what they declare. Each of its
parts is followed in both directions: what it reads is written as the grammar asks for, and what
is written so is read, whatever stands behind it.
-/

namespace RecordLog.Declaration

open Text.Utf8 (IsAscii Picks encodeChar)

/-- Whether characters are ahead of a place. -/
def Cursor.At (c : Cursor) (chars : List Char) : Prop := c.rest = chars.flatMap encodeChar

namespace Cursor.At

variable {c : Cursor} {chars rest : List Char}

theorem past (hc : c.At chars) {p : UInt8 → Bool} {q : Char → Bool} (h : Picks p q) :
    (c.past p).At (chars.dropWhile q) := by
  unfold At at hc ⊢
  rw [Cursor.past, advance, ← h.dropWhile, ← hc]
  have hparts : c.rest.takeWhile p ++ c.rest.dropWhile p = c.rest :=
    List.takeWhile_append_dropWhile
  calc c.rest.drop (c.rest.takeWhile p).length
      = (c.rest.takeWhile p ++ c.rest.dropWhile p).drop (c.rest.takeWhile p).length := by
        rw [hparts]
    _ = c.rest.dropWhile p := List.drop_left

theorem skip (hc : c.At chars) : c.skip.At (chars.dropWhile isSpace) := hc.past picks_space

theorem skip_spaces {before : List Char} (hc : c.At (before ++ rest)) (hbefore : Spaces before)
    (hrest : rest.head?.all (!isSpace ·) = true) : c.skip.At rest := by
  have hskip := hc.skip
  rw [(takeWhile_run hbefore rest hrest).2] at hskip
  exact hskip

theorem rest_eq_cons {token : Char} (hc : c.At (token :: rest))
    (htoken : IsAscii token := by decide) :
    c.rest = byte token :: rest.flatMap encodeChar :=
  hc.trans (Text.Utf8.flatMap_eq_cons_iff htoken |>.mpr ⟨rest, rfl, rfl⟩)

theorem advance {token : Char} (hc : c.At (token :: rest))
    (htoken : IsAscii token := by decide) : (c.advance 1).At rest := by
  rw [At, Cursor.advance, hc.rest_eq_cons htoken]
  rfl

theorem of_rest_eq_cons {token : Char} {more : Bytes} (hc : c.At chars)
    (h : c.rest = byte token :: more) (htoken : IsAscii token := by decide) :
    ∃ rest, chars = token :: rest := by
  obtain ⟨rest, hchars, -⟩ := (Text.Utf8.flatMap_eq_cons_iff htoken).mp (hc.symm.trans h)
  exact ⟨rest, hchars⟩

end Cursor.At

theorem spaces_takeWhile (chars : List Char) : Spaces (chars.takeWhile isSpace) :=
  fun _ h => List.mem_takeWhile_imp h

theorem ascii_flatMap {chars : List Char} (h : ∀ x ∈ chars, IsAscii x) :
    ascii (chars.flatMap encodeChar) = String.ofList chars := by
  have hmap : (chars.flatMap encodeChar).map (fun b => Char.ofNat b.toNat) = chars := by
    induction chars with
    | nil => rfl
    | cons x rest ih =>
      have hx := h x List.mem_cons_self
      have hrest := ih fun y hy => h y (List.mem_cons_of_mem x hy)
      rw [List.flatMap_cons, Text.Utf8.encodeChar_of_isAscii hx, List.singleton_append,
        List.map_cons, Text.Utf8.toNat_byte hx, Char.ofNat_toNat, hrest]
  rw [ascii, hmap]

variable {c d : Cursor} {chars rest : List Char}

/-! ## Tokens -/

section Token

variable {token : Char}

theorem expect_sound (hc : c.At chars) (h : expect token c = .ok d)
    (htoken : IsAscii token := by decide) :
    ∃ before rest, Spaces before ∧ chars = before ++ token :: rest ∧ d.At rest := by
  unfold expect at h
  split at h
  · cases h
  · next b more hrest =>
    split at h
    · next hb =>
      obtain rfl := Except.ok.inj h
      rw [hb] at hrest
      obtain ⟨rest, hahead⟩ := hc.skip.of_rest_eq_cons hrest htoken
      refine ⟨chars.takeWhile isSpace, rest, spaces_takeWhile chars, ?_, ?_⟩
      · rw [← hahead, List.takeWhile_append_dropWhile]
      · have hskip := hc.skip
        rw [hahead] at hskip
        exact hskip.advance htoken
    · cases h

theorem expect_complete {before : List Char} (hbefore : Spaces before)
    (hc : c.At (before ++ token :: rest)) (htoken : IsAscii token := by decide)
    (hspace : isSpace token = false := by decide) :
    ∃ d, expect token c = .ok d ∧ d.At rest := by
  have hskip := hc.skip_spaces hbefore (by simp [hspace])
  refine ⟨c.skip.advance 1, ?_, hskip.advance htoken⟩
  unfold expect
  rw [hskip.rest_eq_cons htoken]
  exact if_pos rfl

end Token

/-! ## Names -/

theorem readName_of_at {first : Char} (hfirst : startsName first = true)
    (hc : c.skip.At (first :: rest)) :
    ∃ d, readName c = .ok (String.ofList (first :: rest.takeWhile continuesName), d) ∧
      d.At (rest.dropWhile continuesName) := by
  have hascii : IsAscii first := picks_startsName.isAscii hfirst
  obtain ⟨b, hencode, hb⟩ := picks_startsName.encodeChar_eq hfirst
  have hbytes : c.skip.rest = b :: rest.flatMap encodeChar := by
    rw [hc, List.flatMap_cons, hencode]
    rfl
  have hname : ascii (b :: (rest.flatMap encodeChar).takeWhile isNameByte) =
      String.ofList (first :: rest.takeWhile continuesName) := by
    rw [picks_continuesName.takeWhile, ← ascii_flatMap, List.flatMap_cons, hencode,
      List.singleton_append]
    intro x hx
    rcases List.mem_cons.mp hx with rfl | hx
    · exact hascii
    · exact picks_continuesName.isAscii (List.mem_takeWhile_imp hx)
  refine ⟨(c.skip.advance 1).past isNameByte, ?_, (hc.advance hascii).past picks_continuesName⟩
  unfold readName
  rw [hbytes]
  simp only [if_pos hb, hname]

theorem readName_sound {name : String} (hc : c.At chars) (h : readName c = .ok (name, d)) :
    ∃ before key rest, Spaces before ∧ IsName key ∧ chars = before ++ key ++ rest ∧
      name = String.ofList key ∧ d.At rest := by
  cases hahead : chars.dropWhile isSpace with
  | nil =>
    have hskip := hc.skip
    rw [hahead] at hskip
    unfold readName at h
    rw [show c.skip.rest = [] from hskip] at h
    cases h
  | cons first rest =>
    have hskip := hc.skip
    rw [hahead] at hskip
    have hfirst : startsName first = true := by
      obtain ⟨b, more, hencode, hpick, -⟩ := picks_startsName first
      have hbytes : c.skip.rest = b :: (more ++ rest.flatMap encodeChar) := by
        rw [hskip, List.flatMap_cons, hencode]
        rfl
      unfold readName at h
      rw [hbytes] at h
      by_contra hnot
      have hb : ¬ isNameStart b = true := hpick ▸ hnot
      simp only [if_neg hb] at h
      cases h
    obtain ⟨e, hread, he⟩ := readName_of_at hfirst hskip
    rw [hread] at h
    obtain ⟨rfl, rfl⟩ := Prod.mk.inj (Except.ok.inj h)
    refine ⟨chars.takeWhile isSpace, first :: rest.takeWhile continuesName,
      rest.dropWhile continuesName, spaces_takeWhile chars, ?_, ?_, rfl, he⟩
    · exact ⟨first, _, rfl, hfirst, fun x hx => List.mem_takeWhile_imp hx⟩
    · rw [List.append_assoc, List.cons_append, List.takeWhile_append_dropWhile, ← hahead,
        List.takeWhile_append_dropWhile]

theorem readName_complete {before key : List Char} (hbefore : Spaces before) (hkey : IsName key)
    (hrest : rest.head?.all (!continuesName ·) = true) (hc : c.At (before ++ (key ++ rest))) :
    ∃ d, readName c = .ok (String.ofList key, d) ∧ d.At rest := by
  obtain ⟨first, more, rfl, hfirst, hmore⟩ := hkey
  rw [List.cons_append] at hc
  have hskip := hc.skip_spaces hbefore (by simp [isSpace_of_startsName hfirst])
  obtain ⟨d, hread, hd⟩ := readName_of_at hfirst hskip
  obtain ⟨htake, hdrop⟩ := takeWhile_run hmore rest hrest
  rw [htake] at hread
  rw [hdrop] at hd
  exact ⟨d, hread, hd⟩

/-! ## Types -/

theorem stands_takeWhile (chars : List Char) :
    ∀ x ∈ chars.takeWhile standsInType, standsInType x = true :=
  fun _ h => List.mem_takeWhile_imp h

/-- The bytes that are read as a type are those of the characters of the type. -/
theorem token_eq (hc : c.At chars) :
    (c.rest.takeWhile fun b => isTypeByte b || Text.isSeparator b).filter isTypeByte =
      (squeeze (chars.takeWhile standsInType)).flatMap encodeChar := by
  have hstands := stands_takeWhile chars
  rw [hc, picks_standsInType.takeWhile, picks_spellsType.filter, filter_spellsType hstands]
  intro x hx
  exact picks_standsInType.isAscii (hstands x hx)

theorem ascii_token (chars : List Char) :
    ascii ((squeeze (chars.takeWhile standsInType)).flatMap encodeChar) =
      String.ofList (squeeze (chars.takeWhile standsInType)) := by
  apply ascii_flatMap
  intro x hx
  exact picks_standsInType.isAscii (stands_takeWhile chars x (List.mem_filter.mp hx).1)

/-- A type extends as far as it can. -/
theorem readType_eq_ok_iff {type : DataType} (hc : c.At chars) :
    readType c = .ok (type, d) ↔ IsType (chars.takeWhile standsInType) type ∧
      d = c.past fun b => isTypeByte b || Text.isSeparator b := by
  simp only [readType, token_eq hc, ascii_token, Text.Utf8.flatMap_eq_nil_iff]
  split
  · next hempty =>
    constructor
    · intro h
      cases h
    · rintro ⟨⟨-, hne, -⟩, -⟩
      exact absurd hempty hne
  · next hne =>
    split
    · next found hfound =>
      constructor
      · intro h
        obtain ⟨rfl, rfl⟩ := Prod.mk.inj (Except.ok.inj h)
        exact ⟨⟨stands_takeWhile chars, hne, hfound⟩, rfl⟩
      · rintro ⟨⟨-, -, htype⟩, rfl⟩
        rw [hfound] at htype
        rw [Except.ok.inj htype]
    · next cause hcause =>
      constructor
      · intro h
        cases h
      · rintro ⟨⟨-, -, htype⟩, -⟩
        rw [hcause] at htype
        cases htype

theorem readType_sound {type : DataType} (hc : c.At chars) (h : readType c = .ok (type, d)) :
    ∃ token rest, IsType token type ∧ chars = token ++ rest ∧ d.At rest := by
  obtain ⟨htype, rfl⟩ := (readType_eq_ok_iff hc).mp h
  exact ⟨_, _, htype, List.takeWhile_append_dropWhile.symm, hc.past picks_standsInType⟩

theorem readType_complete {token : List Char} {type : DataType} (htoken : IsType token type)
    (hrest : rest.head?.all (!standsInType ·) = true) (hc : c.At (token ++ rest)) :
    ∃ d, readType c = .ok (type, d) ∧ d.At rest := by
  obtain ⟨htake, hdrop⟩ := takeWhile_run htoken.1 rest hrest
  have hpast := hc.past picks_standsInType
  rw [hdrop] at hpast
  rw [← htake] at htoken
  exact ⟨_, (readType_eq_ok_iff hc).mpr ⟨htoken, rfl⟩, hpast⟩

/-! ## Columns -/

theorem readItem_sound {item : Item} (hc : c.At chars) (h : readItem c = .ok (item, d)) :
    ∃ column rest, IsColumn column item ∧ chars = column ++ rest ∧ d.At rest := by
  unfold readItem at h
  split at h
  · cases h
  · next name c₁ hname =>
    obtain ⟨before, key, rest₁, hbefore, hkey, rfl, rfl, hc₁⟩ := readName_sound hc hname
    split at h
    · cases h
    · next c₂ hcolon =>
      obtain ⟨between, rest₂, hbetween, rfl, hc₂⟩ := expect_sound hc₁ hcolon
      cases hread : readType c₂ with
      | error fault =>
        rw [hread] at h
        cases h
      | ok result =>
        rw [hread] at h
        obtain ⟨rfl, rfl⟩ := Prod.mk.inj (Except.ok.inj h)
        obtain ⟨token, rest, htoken, rfl, hd⟩ := readType_sound hc₂ hread
        -- The reader takes the spaces behind a type as part of it, so none are left over.
        have hnone : Spaces [] := fun _ hx => absurd hx List.not_mem_nil
        refine ⟨_, rest, .column hbefore hkey hbetween htoken hnone, ?_, hd⟩
        simp

theorem readItem_complete {column : List Char} {item : Item} (h : IsColumn column item)
    (hrest : rest.head?.all (!standsInType ·) = true) (hc : c.At (column ++ rest)) :
    ∃ d, readItem c = .ok (item, d) ∧ d.At rest := by
  obtain @⟨before, key, between, token, after, type, hbefore, hkey, hbetween, htoken, hafter⟩ := h
  have hsplit : before ++ key ++ between ++ ':' :: token ++ after ++ rest =
      before ++ (key ++ (between ++ ':' :: (token ++ after ++ rest))) := by simp
  rw [hsplit] at hc
  -- What follows a name is a space or the colon, at which the name ends.
  have hstop :
      (between ++ ':' :: (token ++ after ++ rest)).head?.all (!continuesName ·) = true := by
    cases between with
    | nil => rfl
    | cons x more => simp [continuesName_of_isSpace (hbetween x List.mem_cons_self)]
  obtain ⟨c₁, hname, hc₁⟩ := readName_complete hbefore hkey hstop hc
  obtain ⟨c₂, hcolon, hc₂⟩ := expect_complete hbetween hc₁
  obtain ⟨d, htype, hd⟩ := readType_complete (htoken.append_spaces hafter) hrest hc₂
  refine ⟨d, ?_, hd⟩
  simp only [readItem, hname, hcolon, htype]
  rfl

theorem readItems_sound {items : List Item} (hc : c.At chars) (h : readItems c = .ok (items, d)) :
    ∃ body rest, AreColumns body items ∧ chars = body ++ '\x7d' :: rest ∧ d.At rest := by
  -- One column is read, and the rest is what the induction speaks of, from behind the comma on.
  fun_induction readItems c generalizing chars items with
  | case1 c fault hread => cases h
  | case2 c item c₁ hread hrest => cases h
  | case3 c item c₁ hread more hcomma ih =>
    obtain ⟨column, ahead, hcolumn, rfl, hc₁⟩ := readItem_sound hc hread
    obtain ⟨behind, rfl⟩ := hc₁.of_rest_eq_cons hcomma
    cases hrest : readItems (c₁.advance 1) with
    | error fault =>
      rw [hrest] at h
      cases h
    | ok result =>
      rw [hrest] at h
      obtain ⟨rfl, rfl⟩ := Prod.mk.inj (Except.ok.inj h)
      obtain ⟨body, rest, hbody, rfl, hd⟩ := ih hc₁.advance hrest
      refine ⟨column ++ ',' :: body, rest, .more hcolumn hbody, ?_, hd⟩
      rw [List.append_assoc, List.cons_append]
  | case4 c item c₁ hread more hclose =>
    obtain ⟨rfl, rfl⟩ := Prod.mk.inj (Except.ok.inj h)
    obtain ⟨column, ahead, hcolumn, rfl, hc₁⟩ := readItem_sound hc hread
    obtain ⟨rest, rfl⟩ := hc₁.of_rest_eq_cons hclose
    exact ⟨column, rest, .last hcolumn, rfl, hc₁.advance⟩
  | case5 c item c₁ hread b more hrest hcomma hclose => cases h

theorem readItems_of_readItem {item : Item} (hread : readItem c = .ok (item, d)) :
    readItems c =
      match d.rest with
      | [] => .error (.schema (d.fault .unterminated))
      | b :: _ =>
        if b = byte ',' then (readItems (d.advance 1)).map fun (items, e) => (item :: items, e)
        else if b = byte '\x7d' then .ok ([item], d.advance 1)
        else .error (.schema ((d.advance 1).fault (.expectedSeparator b))) := by
  rw [readItems]
  split
  · next fault hfault =>
    rw [hread] at hfault
    cases hfault
  · next item' d' hread' =>
    rw [hread] at hread'
    obtain ⟨rfl, rfl⟩ := Prod.mk.inj (Except.ok.inj hread')
    rfl

theorem readItems_complete {body : List Char} {items : List Item} (h : AreColumns body items)
    (hc : c.At (body ++ '\x7d' :: rest)) : ∃ d, readItems c = .ok (items, d) ∧ d.At rest := by
  induction h generalizing c with
  | last hcolumn =>
    obtain ⟨d, hread, hd⟩ := readItem_complete hcolumn rfl hc
    refine ⟨d.advance 1, ?_, hd.advance⟩
    rw [readItems_of_readItem hread, hd.rest_eq_cons]
    rfl
  | more hcolumn hrest ih =>
    rw [List.append_assoc, List.cons_append] at hc
    obtain ⟨d, hread, hd⟩ := readItem_complete hcolumn rfl hc
    obtain ⟨e, hitems, he⟩ := ih hd.advance
    refine ⟨e, ?_, he⟩
    rw [readItems_of_readItem hread, hd.rest_eq_cons, hitems]
    rfl

/-! ## Declarations -/

/-- A text is accepted just if it declares something, and then read as what it declares. -/
theorem parse_eq_ok_iff (text : String) (items : List Item) :
    parse text = .ok items ↔ Declares text.toList items := by
  have hstart : (Cursor.ofText text).At text.toList := rfl
  constructor
  · intro h
    unfold parse at h
    split at h
    · cases h
    · next c₁ hopen =>
      obtain ⟨before, behind, hbefore, htext, hc₁⟩ := expect_sound hstart hopen
      split at h
      · cases h
      · next found c₂ hread =>
        obtain ⟨body, after, hbody, rfl, hc₂⟩ := readItems_sound hc₁ hread
        split at h
        · next hend =>
          obtain rfl := Except.ok.inj h
          have hskip : after.dropWhile isSpace = [] :=
            Text.Utf8.flatMap_eq_nil_iff.mp (hc₂.skip.symm.trans hend)
          refine ⟨before, body, after, hbefore, hbody, ?_, ?_⟩
          · exact List.dropWhile_eq_nil_iff.mp hskip
          · rw [htext, List.append_assoc, List.cons_append]
        · cases h
  · rintro ⟨before, body, after, hbefore, hbody, hafter, htext⟩
    rw [htext, List.append_assoc, List.cons_append] at hstart
    obtain ⟨c₁, hopen, hc₁⟩ := expect_complete hbefore hstart
    obtain ⟨c₂, hread, hc₂⟩ := readItems_complete hbody hc₁
    have hend : c₂.skip.rest = [] := by
      rw [hc₂.skip, List.dropWhile_eq_nil_iff.mpr hafter]
      rfl
    simp only [parse, hopen, hread, if_pos hend]

end RecordLog.Declaration
