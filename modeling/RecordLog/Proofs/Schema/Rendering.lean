import RecordLog.Proofs.Schema.Declaration
import RecordLog.Proofs.Types.Name
import RecordLog.Proofs.Wire.Conversion

/-!
# Declarations of columns that exist

A row of columns can be declared in many ways, since spaces may stand between tokens. A declaration
carries all that a builder is asked for when it makes the row anew, so it is read as the row was,
but for the bounds, which are not declared.
-/

namespace RecordLog

namespace Declaration

/-- Whether characters declare a column, with spaces between its tokens. The type may have some
within it, too. -/
inductive RendersColumn (c : Column) : List Char → Prop where
  | column {before between token : List Char} (hbefore : Spaces before) (hbetween : Spaces between)
      (htoken : squeeze token = c.type.text.toList) :
      RendersColumn c (before ++ c.name.toList ++ between ++ ':' :: token)

/-- Whether characters declare columns, in their order and with commas between them. -/
inductive Renders : List Column → List Char → Prop where
  | last {c : Column} {chars : List Char} (h : RendersColumn c chars) : Renders [c] chars
  | more {c : Column} {columns : List Column} {chars rest : List Char} (h : RendersColumn c chars)
      (hrest : Renders columns rest) : Renders (c :: columns) (chars ++ ',' :: rest)

/-- Whether a text declares columns, as a schema is declared. -/
def Rendering (columns : List Column) (text : String) : Prop :=
  ∃ before body after, Spaces before ∧ Renders columns body ∧ Spaces after ∧
    text.toList = before ++ '\x7b' :: body ++ '\x7d' :: after

theorem isName_iff {key : List Char} :
    IsName key ↔ key.head?.any startsName = true ∧ key.tail.all continuesName = true := by
  constructor
  · rintro ⟨first, more, rfl, hfirst, hmore⟩
    exact ⟨hfirst, List.all_eq_true.mpr hmore⟩
  · intro h
    cases key with
    | nil => cases h.1
    | cons first more => exact ⟨first, more, rfl, h.1, List.all_eq_true.mp h.2⟩

instance (key : List Char) : Decidable (IsName key) := decidable_of_iff _ isName_iff.symm

-- There are finitely many characters, but it is not all of them that should be gone through.
instance (chars : List Char) : Decidable (Spaces chars) :=
  decidable_of_iff (chars.all isSpace = true) List.all_eq_true

theorem spaces_nil : Spaces [] := fun _ hx => absurd hx List.not_mem_nil

/-! ## Types and names -/

theorem isAsciiDigit_of_isDigit {x : Char} (h : x.isDigit = true) : isAsciiDigit x = true := by
  have hall : ∀ d : Fin 10, isAsciiDigit (Number.digitChar d.val) = true := by decide
  obtain ⟨d, rfl⟩ := Number.exists_eq_digitChar h
  exact hall d

theorem spellsType_of_mem_text {t : DataType} {x : Char} (h : x ∈ t.text.toList) :
    spellsType x = true := by
  have hfixed {name : String} (hname : name.toList.all spellsType = true) (hx : x ∈ name.toList) :
      spellsType x = true := List.all_eq_true.mp hname x hx
  cases t with
  | none => exact hfixed (by decide) h
  | bool => exact hfixed (by decide) h
  | integer kind => cases kind <;> exact hfixed (by decide) h
  | float => exact hfixed (by decide) h
  | double => exact hfixed (by decide) h
  | string width =>
    rw [DataType.toList_text_string] at h
    simp only [List.mem_append, List.mem_cons, List.not_mem_nil, or_false] at h
    rcases h with hname | rfl | hdigit | rfl
    · exact hfixed (by decide) hname
    · decide
    · have hascii := isAsciiDigit_of_isDigit (Number.isDigit_of_mem_digits hdigit)
      rw [spellsType, hascii, Bool.or_true, Bool.true_or, Bool.true_or]
    · decide

theorem text_ne_nil (t : DataType) : t.text.toList ≠ [] := by
  cases t with
  | none => decide
  | bool => decide
  | integer kind => cases kind <;> decide
  | float => decide
  | double => decide
  | string width =>
    rw [DataType.toList_text_string]
    exact List.append_ne_nil_of_right_ne_nil _ (List.cons_ne_nil _ _)

/-- The type of a column is read from its written form, wherever there are spaces in it. -/
theorem isType_of_squeeze {t : DataType} (ht : t ≠ .none) {token : List Char}
    (h : squeeze token = t.text.toList) : IsType token t := by
  refine ⟨?_, h ▸ text_ne_nil t, ?_⟩
  · intro x hx
    cases hspace : isSpace x with
    | true => rw [standsInType, hspace, Bool.or_true]
    | false =>
      have hkept : x ∈ squeeze token := List.mem_filter.mpr ⟨hx, by rw [hspace]; rfl⟩
      rw [h] at hkept
      rw [standsInType, spellsType_of_mem_text hkept, Bool.true_or]
  · rw [h, String.ofList_toList]
    exact DataType.ofText_text ht

end Declaration

/-- What a declaration says of a column. -/
def Column.item (c : Column) : Declaration.Item := (c.name, c.type)

namespace Declaration

variable {columns : List Column} {c : Column} {chars : List Char}

theorem RendersColumn.isColumn (h : RendersColumn c chars) (hname : IsName c.name.toList) :
    IsColumn chars c.item := by
  obtain @⟨before, between, token, hbefore, hbetween, htoken⟩ := h
  have hcolumn := IsColumn.column hbefore hname hbetween
    (isType_of_squeeze c.type_ne_none htoken) spaces_nil
  rw [List.append_nil, String.ofList_toList] at hcolumn
  exact hcolumn

theorem Renders.areColumns (h : Renders columns chars)
    (hnames : ∀ c ∈ columns, IsName c.name.toList) :
    AreColumns chars (columns.map Column.item) := by
  induction h with
  | last h => exact .last (h.isColumn (hnames _ List.mem_cons_self))
  | more h hrest ih =>
    exact .more (h.isColumn (hnames _ List.mem_cons_self))
      (ih fun c hc => hnames c (List.mem_cons_of_mem _ hc))

/-- A text that declares columns is read as what it says of them. -/
theorem Rendering.parse {text : String} (h : Rendering columns text)
    (hnames : ∀ c ∈ columns, IsName c.name.toList) :
    parse text = .ok (columns.map Column.item) := by
  obtain ⟨before, body, after, hbefore, hbody, hafter, htext⟩ := h
  have hstart : (Cursor.ofText text).At text.toList := rfl
  rw [htext, List.append_assoc, List.cons_append] at hstart
  obtain ⟨c₁, hopen, hc₁⟩ := expect_complete hbefore hstart
  obtain ⟨c₂, hread, hc₂⟩ := readItems_complete (hbody.areColumns hnames) hc₁
  have hend : c₂.skip.rest = [] := by
    rw [hc₂.skip, List.dropWhile_eq_nil_iff.mpr hafter]
    rfl
  simp only [Declaration.parse, hopen, hread, if_pos hend]

/-! ## The shortest declaration -/

/-- The declarations of columns without spaces. -/
def body : List Column → List Char
  | [] => []
  | [c] => c.name.toList ++ ':' :: c.type.text.toList
  | c :: rest => (c.name.toList ++ ':' :: c.type.text.toList) ++ ',' :: body rest

theorem squeeze_text (t : DataType) : squeeze t.text.toList = t.text.toList := by
  apply List.filter_eq_self.mpr
  intro x hx
  cases hspace : isSpace x with
  | true =>
    have hspells := spellsType_of_mem_text hx
    rw [spellsType_of_isSpace hspace] at hspells
    cases hspells
  | false => rfl

theorem rendersColumn_compact (c : Column) :
    RendersColumn c (c.name.toList ++ ':' :: c.type.text.toList) := by
  have hcolumn := RendersColumn.column spaces_nil spaces_nil (squeeze_text c.type)
  rw [List.nil_append, List.append_nil] at hcolumn
  exact hcolumn

theorem renders_body {columns : List Column} (h : columns ≠ []) :
    Renders columns (body columns) := by
  fun_induction body columns with
  | case1 => exact absurd rfl h
  | case2 c => exact .last (rendersColumn_compact c)
  | case3 c rest hrest ih => exact .more (rendersColumn_compact c) (ih hrest)

end Declaration

/-- The declaration of a schema, without spaces. -/
def Schema.declaration (s : Schema) : String :=
  String.ofList ('\x7b' :: Declaration.body s.columns ++ ['\x7d'])

theorem Schema.rendering_declaration (s : Schema) :
    Declaration.Rendering s.columns s.declaration := by
  have hbody := Declaration.renders_body (List.cons_ne_nil s.stamp s.others)
  refine ⟨[], _, [], Declaration.spaces_nil, hbody, Declaration.spaces_nil, ?_⟩
  rw [declaration, String.toList_ofList, List.nil_append]
  rfl

/-! ## Schemas that come back -/

namespace Builder

variable {b grown next : Builder} {c : Column} {rest : List Declaration.Item}

theorem addItems_cons (hadded : Added b ⟨c.type, c.name, none⟩ next) :
    b.addItems (c.item :: rest) = next.addItems rest := by
  rw [Column.item, addItems, add_eq_ok_iff.mpr hadded]

end Builder

namespace Built

variable {before behind : List Column}

/-- The columns of a row are added one after the other, as they are declared. -/
theorem addItems (h : Built (before ++ behind)) (hfirst : .timestamp ∈ before) :
    Builder.addItems ⟨before.map Column.withoutBounds⟩ (behind.map Column.item) =
      .ok ⟨(before ++ behind).map Column.withoutBounds⟩ := by
  induction behind generalizing before with
  | nil =>
    rw [List.append_nil]
    rfl
  | cons c rest ih =>
    have hnext : before ++ c :: rest = (before ++ [c]) ++ rest := by simp
    rw [List.map_cons, Builder.addItems_cons (h.added_withoutBounds hfirst)]
    rw [hnext] at h ⊢
    exact ih h (List.mem_append_left _ hfirst)

theorem addItems_others {s : Schema} (h : Built s.columns) :
    Builder.start.addItems (s.others.map Column.item) = .ok ⟨s.withoutBounds.columns⟩ := by
  have hstamp : s.stamp = .timestamp := Option.some.inj h.first
  have hrow : Built ([.timestamp] ++ s.others) := by
    rw [← hstamp]
    exact h
  rw [Schema.columns_withoutBounds, Schema.columns, hstamp]
  exact hrow.addItems (List.mem_singleton_self _)

/-- The timestamp may be declared as well, as it stands in front of any row. -/
theorem addItems_columns {s : Schema} (h : Built s.columns) :
    Builder.start.addItems (s.columns.map Column.item) = .ok ⟨s.withoutBounds.columns⟩ := by
  have hstamp : s.stamp = .timestamp := Option.some.inj h.first
  have hadded : Added Builder.start ⟨Column.timestamp.type, Column.timestamp.name, none⟩
      Builder.start := .timestamp (by decide) rfl
  rw [Schema.columns, hstamp, List.map_cons, Builder.addItems_cons hadded]
  exact h.addItems_others

end Built

namespace Schema

theorem parse_succeeds_iff {text : String} {s : Schema} :
    parse text = .ok s ↔ ∃ items b, Declaration.parse text = .ok items ∧
      Builder.start.addItems items = .ok b ∧ ofColumns b.columns = .ok s := by
  simp only [parse, bind, Except.bind]
  cases Declaration.parse text with
  | error fault => simp
  | ok items =>
    simp only [Except.ok.injEq, exists_and_left, exists_eq_left']
    cases Builder.start.addItems items with
    | error cause => simp [Except.mapError]
    | ok b => exact mapError_eq_ok_iff.trans (by simp)

theorem parse_of_addItems {text : String} {items : List Declaration.Item} {s : Schema}
    (hread : Declaration.parse text = .ok items)
    (hadded : Builder.start.addItems items = .ok ⟨s.columns⟩) : parse text = .ok s :=
  parse_succeeds_iff.mpr ⟨items, _, hread, hadded, s.ofColumns_columns⟩

/-- A schema that a builder made, by any requests, under names that can be declared, is read from
its declaration without its bounds, wherever spaces stand between the tokens, and whether or not
the timestamp is declared. -/
theorem parse_renderings (additions : List Addition)
    (hnames : ∀ c ∈ (Builder.start.run additions).columns, Declaration.IsName c.name.toList) :
    ∃ s, ofColumns (Builder.start.run additions).columns = .ok s ∧
      s.columns = (Builder.start.run additions).columns ∧
      parse s.declaration = .ok s.withoutBounds ∧
      (∀ text, Declaration.Rendering s.columns text → parse text = .ok s.withoutBounds) ∧
      ∀ text, Declaration.Rendering s.others text → parse text = .ok s.withoutBounds := by
  have hbuilt := Built.start.run additions
  obtain ⟨s, hschema, hcolumns⟩ := hbuilt.ofColumns
  rw [← hcolumns] at hbuilt hnames
  have hall (text : String) (h : Declaration.Rendering s.columns text) :
      parse text = .ok s.withoutBounds :=
    parse_of_addItems (h.parse hnames) hbuilt.addItems_columns
  refine ⟨s, hschema, hcolumns, hall _ s.rendering_declaration, hall, ?_⟩
  intro text h
  have hothers : ∀ c ∈ s.others, Declaration.IsName c.name.toList :=
    fun c hc => hnames c (List.mem_cons_of_mem _ hc)
  exact parse_of_addItems (h.parse hothers) hbuilt.addItems_others

/-- Bounds on a column, and spaces around tokens and within a type. -/
theorem parse_renderings_of_bounds :
    let bounds : Bounds := ⟨.integer .int ⟨0, by decide⟩, .integer .int ⟨9, by decide⟩⟩
    let additions : List Addition :=
      [⟨.string ⟨16, by decide, by decide⟩, " msg ", none⟩, ⟨.integer .short, "v_1", some bounds⟩]
    let msg : Column := ⟨1, 8, .string ⟨16, by decide, by decide⟩, "MSG", none, by decide⟩
    let v : Column := ⟨2, 24, .integer .short, "V_1", none, by decide⟩
    ∃ s, ofColumns (Builder.start.run additions).columns = .ok s ∧
      s.columns = [.timestamp, msg, { v with bounds := some bounds }] ∧
      s.withoutBounds.columns = [.timestamp, msg, v] ∧
      parse "\x7bTIMESTAMP:ULONG,MSG:STRING(16),V_1:SHORT\x7d" = .ok s.withoutBounds ∧
      parse " \x7bMSG :\tSTRING( 16 ),\nV_1:SHORT\x7d\n" = .ok s.withoutBounds := by
  intro bounds additions msg v
  have hrow : (Builder.start.run additions).columns =
      [.timestamp, msg, { v with bounds := some bounds }] := by decide
  have hnames : ∀ c ∈ (Builder.start.run additions).columns,
      Declaration.IsName c.name.toList := by
    rw [hrow]
    decide
  obtain ⟨s, hschema, hcolumns, hshort, -, hothers⟩ := parse_renderings additions hnames
  rw [hrow] at hcolumns
  have hbehind : s.others = [msg, { v with bounds := some bounds }] := (List.cons.inj hcolumns).2
  have hspace : Declaration.Spaces [' '] := by decide
  have hline : Declaration.Spaces ['\n'] := by decide
  have hstring : Declaration.squeeze "\tSTRING( 16 )".toList = msg.type.text.toList := by
    decide
  have hplain : Declaration.squeeze "SHORT".toList = v.type.text.toList := by decide
  refine ⟨s, hschema, hcolumns, ?_, ?_, ?_⟩
  · rw [columns_withoutBounds, hcolumns]
    rfl
  · have htext : s.declaration = "\x7bTIMESTAMP:ULONG,MSG:STRING(16),V_1:SHORT\x7d" := by
      rw [declaration, hcolumns]
      decide
    rw [← htext]
    exact hshort
  · apply hothers
    rw [hbehind]
    exact ⟨[' '], _, ['\n'], hspace, .more (.column Declaration.spaces_nil hspace hstring)
      (.last (.column hline Declaration.spaces_nil hplain)), hline, by decide⟩

end Schema

end RecordLog
