import RecordLog.Proofs.Text.Ascii
import RecordLog.Schema.Declaration

/-!
# The language of declarations

Declarations are described among characters, without a reader: which characters may stand where,
and what a list of them declares. What the reader asks of bytes picks out the same characters.
-/

namespace RecordLog.Declaration

open Text.Utf8 (IsAscii Picks encodeChar)

/-- Whether a character may stand between tokens. -/
def isSpace (x : Char) : Bool := x = '\t' || x = '\n' || x = '\x0C' || x = '\r' || x = ' '

def isAsciiLetter (x : Char) : Bool := ('A' ≤ x && x ≤ 'Z') || ('a' ≤ x && x ≤ 'z')

def isAsciiDigit (x : Char) : Bool := '0' ≤ x && x ≤ '9'

def startsName (x : Char) : Bool := isAsciiLetter x || x = '_'

def continuesName (x : Char) : Bool := startsName x || isAsciiDigit x

def spellsType (x : Char) : Bool := isAsciiLetter x || isAsciiDigit x || x = '(' || x = ')'

/-- Whether a character may stand between the colon and the end of a column. -/
def standsInType (x : Char) : Bool := spellsType x || isSpace x

def Spaces (chars : List Char) : Prop := ∀ x ∈ chars, isSpace x = true

def IsName (key : List Char) : Prop :=
  ∃ first more, key = first :: more ∧ startsName first = true ∧ ∀ x ∈ more, continuesName x = true

/-- What is left of characters without those that may stand between tokens. -/
def squeeze (chars : List Char) : List Char := chars.filter fun x => !isSpace x

/-- The characters of a type, which is what they spell without spaces. -/
def IsType (token : List Char) (type : DataType) : Prop :=
  (∀ x ∈ token, standsInType x = true) ∧ squeeze token ≠ [] ∧
    DataType.ofText (String.ofList (squeeze token)) = .ok type

inductive IsColumn : List Char → Item → Prop where
  | column {before key between token after : List Char} {type : DataType}
      (hbefore : Spaces before) (hkey : IsName key) (hbetween : Spaces between)
      (htoken : IsType token type) (hafter : Spaces after) :
      IsColumn (before ++ key ++ between ++ ':' :: token ++ after) (String.ofList key, type)

/-- The characters of columns, with commas between them. -/
inductive AreColumns : List Char → List Item → Prop where
  | last {chars : List Char} {item : Item} (hcolumn : IsColumn chars item) :
      AreColumns chars [item]
  | more {chars rest : List Char} {item : Item} {items : List Item}
      (hcolumn : IsColumn chars item) (hrest : AreColumns rest items) :
      AreColumns (chars ++ ',' :: rest) (item :: items)

/-- What a text declares. -/
def Declares (chars : List Char) (items : List Item) : Prop :=
  ∃ before body after, Spaces before ∧ AreColumns body items ∧ Spaces after ∧
    chars = before ++ '\x7b' :: body ++ '\x7d' :: after

/-! ## Classes of bytes -/

theorem picks_space : Picks Text.isSeparator isSpace :=
  ((((Picks.single '\t').or (.single '\n')).or (.single '\x0C')).or (.single '\r')).or (.single ' ')

theorem picks_letter : Picks isLetter isAsciiLetter :=
  (Picks.between 'A' 'Z').or (.between 'a' 'z')

theorem picks_digit : Picks isDigit isAsciiDigit := .between '0' '9'

theorem picks_startsName : Picks isNameStart startsName := picks_letter.or (.single '_')

theorem picks_continuesName : Picks isNameByte continuesName := picks_startsName.or picks_digit

theorem picks_spellsType : Picks isTypeByte spellsType :=
  ((picks_letter.or picks_digit).or (.single '(')).or (.single ')')

theorem picks_standsInType :
    Picks (fun b => isTypeByte b || Text.isSeparator b) standsInType :=
  picks_spellsType.or picks_space

theorem continuesName_of_startsName {x : Char} (h : startsName x = true) :
    continuesName x = true := by
  rw [continuesName, h, Bool.true_or]

theorem continuesName_of_isSpace {x : Char} (h : isSpace x = true) : continuesName x = false := by
  simp only [isSpace, Bool.or_eq_true, decide_eq_true_eq] at h
  rcases h with (((rfl | rfl) | rfl) | rfl) | rfl <;> decide

theorem spellsType_of_isSpace {x : Char} (h : isSpace x = true) : spellsType x = false := by
  simp only [isSpace, Bool.or_eq_true, decide_eq_true_eq] at h
  rcases h with (((rfl | rfl) | rfl) | rfl) | rfl <;> decide

theorem isSpace_of_startsName {x : Char} (h : startsName x = true) : isSpace x = false := by
  apply Bool.eq_false_iff.mpr
  intro hspace
  have hname := continuesName_of_startsName h
  rw [continuesName_of_isSpace hspace] at hname
  cases hname

/-! ## Types and the spaces in them -/

/-- Among the characters that stand in a type, those of the type are the ones that are no
spaces. -/
theorem filter_spellsType {token : List Char} (h : ∀ x ∈ token, standsInType x = true) :
    token.filter spellsType = squeeze token := by
  apply List.filter_congr
  intro x hx
  cases hspace : isSpace x with
  | true =>
    rw [spellsType_of_isSpace hspace]
    rfl
  | false =>
    have hstands := h x hx
    rw [standsInType, hspace, Bool.or_false] at hstands
    rw [hstands]
    rfl

/-- Spaces behind a type may as well belong to it. -/
theorem IsType.append_spaces {token after : List Char} {type : DataType} (h : IsType token type)
    (hafter : Spaces after) : IsType (token ++ after) type := by
  obtain ⟨hall, hne, htype⟩ := h
  have hnone : squeeze after = [] := by
    apply List.filter_eq_nil_iff.mpr
    intro x hx
    simp [hafter x hx]
  have hsqueeze : squeeze (token ++ after) = squeeze token := by
    rw [squeeze, List.filter_append]
    exact (congrArg _ hnone).trans (List.append_nil _)
  refine ⟨?_, hsqueeze ▸ hne, hsqueeze ▸ htype⟩
  intro x hx
  rcases List.mem_append.mp hx with hx | hx
  · exact hall x hx
  · rw [standsInType, hafter x hx, Bool.or_true]

end RecordLog.Declaration
