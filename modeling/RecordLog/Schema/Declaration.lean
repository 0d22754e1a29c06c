import RecordLog.Schema.Basic
import RecordLog.Types.Name

/-!
# Declarations of schemas

A declaration lists columns between braces, separated by commas, each a name, a colon and a
type. Separators may stand between any two tokens and also inside a type, which is read without
them. A fault shows the position behind the last byte that was looked at, and what follows it.
-/

namespace RecordLog.Declaration

/-- A place in a declaration: how many bytes are behind it, and which are ahead. -/
structure Cursor where
  position : Nat
  rest : Bytes

abbrev Item := String × DataType

namespace Cursor

def ofText (s : String) : Cursor := ⟨0, Text.Utf8.encode s⟩

def advance (c : Cursor) (count : Nat) : Cursor := ⟨c.position + count, c.rest.drop count⟩

/-- The place behind the bytes of a class. -/
def past (c : Cursor) (p : UInt8 → Bool) : Cursor := c.advance (c.rest.takeWhile p).length

/-- The place behind separators. -/
def skip (c : Cursor) : Cursor := c.past Text.isSeparator

def fault (c : Cursor) (flaw : DeclarationFlaw) : SchemaFault :=
  .declaration flaw c.position c.rest

theorem past_length_le (c : Cursor) (p : UInt8 → Bool) :
    (c.past p).rest.length ≤ c.rest.length := by
  simp [past, advance]

end Cursor

def byte (token : Char) : UInt8 := UInt8.ofNat token.toNat

/-- Goes past a token and the separators before it. -/
def expect (token : Char) (c : Cursor) : Except SchemaFault Cursor :=
  match c.skip.rest with
  | [] => .error (c.skip.fault (.expected token none))
  | b :: _ =>
    if b = byte token then .ok (c.skip.advance 1)
    else .error ((c.skip.advance 1).fault (.expected token (some b)))

/-- The characters that bytes of ASCII stand for. -/
def ascii (bytes : Bytes) : String := String.ofList (bytes.map fun b => Char.ofNat b.toNat)

def isLetter (b : UInt8) : Bool := (0x41 ≤ b && b ≤ 0x5A) || (0x61 ≤ b && b ≤ 0x7A)

def isDigit (b : UInt8) : Bool := 0x30 ≤ b && b ≤ 0x39

def isNameStart (b : UInt8) : Bool := isLetter b || b == 0x5F

def isNameByte (b : UInt8) : Bool := isNameStart b || isDigit b

def isTypeByte (b : UInt8) : Bool := isLetter b || isDigit b || b == 0x28 || b == 0x29

/-- Reads the name of a column, which extends as far as it can. -/
def readName (c : Cursor) : Except SchemaFault (String × Cursor) :=
  match c.skip.rest with
  | [] => .error (c.skip.fault .expectedName)
  | b :: rest =>
    if isNameStart b then
      .ok (ascii (b :: rest.takeWhile isNameByte), (c.skip.advance 1).past isNameByte)
    else .error (c.skip.fault .expectedName)

/-- Reads a type, which extends as far as it can, separators inside it included. -/
def readType (c : Cursor) : Except Fault (DataType × Cursor) :=
  let inType b := isTypeByte b || Text.isSeparator b
  let token := (c.rest.takeWhile inType).filter isTypeByte
  let c := c.past inType
  if token = [] then .error (.schema (c.fault .expectedType))
  else
    match DataType.ofText (ascii token) with
    | .ok type => .ok (type, c)
    | .error cause => .error (.type cause)

def readItem (c : Cursor) : Except Fault (Item × Cursor) :=
  match readName c with
  | .error cause => .error (.schema cause)
  | .ok (name, c) =>
    match expect ':' c with
    | .error cause => .error (.schema cause)
    | .ok c => (readType c).map fun (type, c) => ((name, type), c)

theorem readName_length_lt {c d : Cursor} {name : String} (h : readName c = .ok (name, d)) :
    d.rest.length < c.rest.length := by
  have hskip : c.skip.rest.length ≤ c.rest.length := c.past_length_le _
  unfold readName at h
  split at h
  · simp at h
  · next b rest hrest =>
    split at h
    · simp only [Except.ok.injEq, Prod.mk.injEq] at h
      have hpast := (c.skip.advance 1).past_length_le isNameByte
      rw [hrest, List.length_cons] at hskip
      have hone : (c.skip.advance 1).rest.length = rest.length := by
        simp [Cursor.advance, hrest]
      rw [← h.2]
      omega
    · simp at h

theorem expect_length_le {token : Char} {c d : Cursor} (h : expect token c = .ok d) :
    d.rest.length ≤ c.rest.length := by
  have hskip : c.skip.rest.length ≤ c.rest.length := c.past_length_le _
  unfold expect at h
  split at h
  · simp at h
  · split at h
    · simp only [Except.ok.injEq] at h
      rw [← h]
      simp only [Cursor.advance, List.length_drop]
      omega
    · simp at h

theorem readType_length_le {c d : Cursor} {type : DataType}
    (h : readType c = .ok (type, d)) : d.rest.length ≤ c.rest.length := by
  unfold readType at h
  dsimp only at h
  split at h
  · simp at h
  · split at h
    · simp only [Except.ok.injEq, Prod.mk.injEq] at h
      rw [← h.2]
      exact c.past_length_le _
    · simp at h

/-- Each column takes at least one byte, so reading columns comes to an end. -/
theorem readItem_length_lt {c d : Cursor} {item : Item} (h : readItem c = .ok (item, d)) :
    d.rest.length < c.rest.length := by
  unfold readItem at h
  split at h
  · simp at h
  · next name c₁ hname =>
    split at h
    · simp at h
    · next c₂ hcolon =>
      cases htype : readType c₂ with
      | error fault => rw [htype] at h; simp [Except.map] at h
      | ok result =>
        rw [htype] at h
        simp only [Except.map, Except.ok.injEq, Prod.mk.injEq] at h
        have h₁ := readName_length_lt hname
        have h₂ := expect_length_le hcolon
        have h₃ := readType_length_le (c := c₂) (d := result.2) htype
        rw [← h.2]
        omega

/-- Reads columns up to the closing brace, which is left behind. -/
def readItems (c : Cursor) : Except Fault (List Item × Cursor) :=
  match _h : readItem c with
  | .error fault => .error fault
  | .ok (item, d) =>
    match d.rest with
    | [] => .error (.schema (d.fault .unterminated))
    | b :: _ =>
      if b = byte ',' then (readItems (d.advance 1)).map fun (items, e) => (item :: items, e)
      else if b = byte '\x7d' then .ok ([item], d.advance 1)
      else .error (.schema ((d.advance 1).fault (.expectedSeparator b)))
termination_by c.rest.length
decreasing_by
  have hlt := readItem_length_lt _h
  simp only [Cursor.advance, List.length_drop]
  omega

def parse (s : String) : Except Fault (List Item) :=
  match expect '\x7b' (Cursor.ofText s) with
  | .error cause => .error (.schema cause)
  | .ok c =>
    match readItems c with
    | .error fault => .error fault
    | .ok (items, c) =>
      if c.skip.rest = [] then .ok items else .error (.schema (c.skip.fault .trailing))

end RecordLog.Declaration

namespace RecordLog

def Builder.addItems : Builder → List Declaration.Item → Except SchemaFault Builder
  | b, [] => .ok b
  | b, (name, type) :: rest =>
    match b.add type name with
    | .ok b => b.addItems rest
    | .error cause => .error cause

def Schema.parse (s : String) : Except Fault Schema := do
  let items ← Declaration.parse s
  let b ← (Builder.start.addItems items).mapError .schema
  (Schema.ofColumns b.columns).mapError .schema

end RecordLog
