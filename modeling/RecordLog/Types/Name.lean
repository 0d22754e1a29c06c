import RecordLog.Fault
import RecordLog.Text.Blank
import RecordLog.Text.Letters

/-!
# Written types

A type is written as its name in any case, with blanks around it, and a width in parentheses:
for strings there has to be one, for the other types it may be given if it is the right one. The
type of nothing has no written form that is read.
-/

namespace RecordLog

namespace DataType

def ofStringWidth (size : Nat) (bounded : size < UInt32.size) : Except TypeFault DataType :=
  if h : 0 < size then .ok (.string ⟨size, h, bounded⟩) else .error .emptyString

/-- The type of a tag and a width in bytes, which has to be the tag's own if it has one. -/
def ofTag (tag : Tag) (size : UInt32) : Except TypeFault DataType :=
  match tag.type? with
  | some type =>
    if type.size = size.toNat then .ok type else .error (.wrongWidth tag type.size size.toNat)
  | Option.none => ofStringWidth size.toNat size.toNat_lt

end DataType

/-- The tag with a given name, in any case. The tag of nothing is not found by its name. -/
def Tag.ofName? (name : String) : Option Tag :=
  Tag.all.find? fun tag => tag ≠ .none && tag.name = Text.upper name

namespace DataType

/-- The width in parentheses that ends a written type, `s` being what follows the opening one:
digits that stand for a number of 32 bits. -/
def readWidth? (s : List Char) : Option UInt32 :=
  let digits := s.dropLast
  if s.getLast? = some ')' ∧ digits ≠ [] ∧ digits.all Char.isDigit then
    let size := Number.digitsValue digits
    if size < UInt32.size then some (UInt32.ofNat size) else Option.none
  else Option.none

/-- Whether characters may be the name of a type, known or not. -/
def isTypeName (s : List Char) : Bool := s ≠ [] && s.all fun c => c.isAlpha || c = '_'

/-- The name and the width of a written type, or nothing if it does not have this form. -/
def split? (s : List Char) : Option (List Char × Option UInt32) :=
  let name := s.takeWhile (· ≠ '(')
  if isTypeName name then
    match s.dropWhile (· ≠ '(') with
    | [] => some (name, Option.none)
    | _ :: rest => (readWidth? rest).map fun size => (name, some size)
  else Option.none

/-- The type with a given name and width. The text is the written form that a fault shows. -/
def named (text : String) (name : List Char) (size : Option UInt32) :
    Except TypeFault DataType :=
  match Tag.ofName? (String.ofList name), size with
  | Option.none, _ => .error (.unknownName text)
  | some tag, some size => ofTag tag size
  | some tag, Option.none =>
    match tag.type? with
    | some type => .ok type
    | Option.none => .error (.missingWidth text)

def ofText (s : String) : Except TypeFault DataType :=
  let text := Text.trim s
  match split? text.toList with
  | Option.none => .error (.malformedName text)
  | some (name, size) => named text name size

end DataType

end RecordLog
