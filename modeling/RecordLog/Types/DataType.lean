import RecordLog.Types.IntKind
import RecordLog.Number.Binary.Basic

/-!
# Data types of columns

A tag names one of the primitive types and is what travels between client and server, as a code.
A data type is a tag together with a width in bytes. The width is fixed for all tags but that
of strings, where each column chooses its own: so only the string constructor carries one.
-/

namespace RecordLog

inductive Tag where
  | none
  | bool
  | integer (kind : IntKind)
  | float
  | double
  | string
  deriving DecidableEq

namespace Tag

/-- All tags, each at the place of its code. -/
def all : List Tag :=
  [.none, .bool, .integer .char, .integer .uchar, .integer .short, .integer .ushort,
   .integer .int, .integer .uint, .integer .long, .integer .ulong, .float, .double, .string]

/-- The number of a tag in the exchange with the server. -/
def code : Tag → Nat
  | .none => 0
  | .bool => 1
  | .integer .char => 2
  | .integer .uchar => 3
  | .integer .short => 4
  | .integer .ushort => 5
  | .integer .int => 6
  | .integer .uint => 7
  | .integer .long => 8
  | .integer .ulong => 9
  | .float => 10
  | .double => 11
  | .string => 12

def ofCode? (code : Nat) : Option Tag := all[code]?

theorem ofCode?_code (t : Tag) : ofCode? t.code = some t := by
  cases t with
  | integer kind => cases kind <;> rfl
  | _ => rfl

def name : Tag → String
  | .none => "NONE"
  | .bool => "BOOL"
  | .integer .char => "CHAR"
  | .integer .uchar => "UCHAR"
  | .integer .short => "SHORT"
  | .integer .ushort => "USHORT"
  | .integer .int => "INT"
  | .integer .uint => "UINT"
  | .integer .long => "LONG"
  | .integer .ulong => "ULONG"
  | .float => "FLOAT"
  | .double => "DOUBLE"
  | .string => "STRING"

end Tag

/-- The width of a string column: at least one byte, and a number of 32 bits. -/
structure StringWidth where
  bytes : Nat
  positive : 0 < bytes
  bounded : bytes < UInt32.size
  deriving DecidableEq

/-- What a column holds, with its width. -/
inductive DataType where
  | none
  | bool
  | integer (kind : IntKind)
  | float
  | double
  | string (width : StringWidth)
  deriving DecidableEq

namespace DataType

def timestamp : DataType := .integer .ulong

def tag : DataType → Tag
  | .none => .none
  | .bool => .bool
  | .integer kind => .integer kind
  | .float => .float
  | .double => .double
  | .string _ => .string

def size : DataType → Nat
  | .none => 0
  | .bool => 1
  | .integer kind => kind.width
  | .float => Number.Format.single.size
  | .double => Number.Format.double.size
  | .string width => width.bytes

/-- The written form of a type: its name, and for strings the width in parentheses. -/
def text : DataType → String
  | .string width => s!"STRING({width.bytes})"
  | t => t.tag.name

/-- Only the type of nothing takes no room in a record. -/
theorem size_pos {t : DataType} (h : t ≠ .none) : 0 < t.size := by
  cases t with
  | none => exact absurd rfl h
  | bool => decide
  | integer kind => cases kind <;> decide
  | float => decide
  | double => decide
  | string width => exact width.positive

end DataType

namespace Tag

/-- The type of a tag that fixes its width; a string has no width of its own. -/
def type? : Tag → Option DataType
  | .none => some .none
  | .bool => some .bool
  | .integer kind => some (.integer kind)
  | .float => some .float
  | .double => some .double
  | .string => Option.none

def width? (t : Tag) : Option Nat := t.type?.map DataType.size

end Tag

end RecordLog
