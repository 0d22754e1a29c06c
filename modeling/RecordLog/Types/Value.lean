import RecordLog.Types.IntKind
import RecordLog.Number.Binary.Rounding
import RecordLog.Number.Binary.Printer
import RecordLog.Text.Utf8

/-!
# Values

A value of a field is a truth value, an integer of some kind, a number of one of the two binary
formats, or a string of bytes. Any bytes may stand in a string: it is text only where they are
UTF-8.
-/

namespace RecordLog

/-- A value that a field of a record can hold. -/
inductive Value where
  | bool (b : Bool)
  | integer (kind : IntKind) (n : kind.Number)
  | float (x : Number.Single)
  | double (x : Number.Double)
  | string (bytes : Bytes)
  deriving DecidableEq

namespace Value

def ofText (s : String) : Value := .string (Text.Utf8.encode s)

def kind : Value → String
  | .bool _ => "bool"
  | .integer .char _ => "char"
  | .integer .uchar _ => "uchar"
  | .integer .short _ => "short"
  | .integer .ushort _ => "ushort"
  | .integer .int _ => "int"
  | .integer .uint _ => "uint"
  | .integer .long _ => "long"
  | .integer .ulong _ => "ulong"
  | .float _ => "float"
  | .double _ => "double"
  | .string _ => "string"

/-- The integer that a value of any integer kind stands for. -/
def integer? : Value → Option Int
  | .integer _ n => some n.val
  | _ => none

/-- The number of 64 bits that a value stands for: an integer is rounded, a number of 32 bits is
widened exactly. -/
def double? : Value → Option Number.Double
  | .integer _ n => some (.ofInt .double n.val)
  | .float x => some (x.convert .double)
  | .double x => some x
  | .bool _ | .string _ => none

/-- The text of a string value, if its bytes are UTF-8. -/
def text? : Value → Option String
  | .string bytes => (Text.Utf8.decode bytes).toOption
  | _ => none

/-- The written form of a value. Numbers are written so that they read back; the bytes of a
string are shown as far as they are text. -/
def text : Value → String
  | .bool b => if b then "true" else "false"
  | .integer _ n => String.ofList (Number.decimal n.val)
  | .float x => String.ofList x.text
  | .double x => String.ofList x.text
  | .string bytes => Text.Utf8.decodeLossy bytes

/-- Equality of values, in which the numbers of the binary formats are compared as numbers. -/
def equal : Value → Value → Bool
  | .float x, .float y => x.equal y
  | .double x, .double y => x.equal y
  | v, w => v = w

end Value

end RecordLog
