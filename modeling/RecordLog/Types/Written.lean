import RecordLog.Types.Packing
import RecordLog.Text.Blank
import RecordLog.Text.Letters

/-!
# Written values

A value is read from text by the type of its column. Blanks around a truth value or a number do
not matter, while a string is the text itself, blanks included. The other direction shows the
bytes of a field: a string without the zeros that fill it up, and with replacement characters
where it is not text.
-/

namespace RecordLog

namespace DataType

/-- The truth value that a text without blanks around it stands for. -/
def readBool? (s : String) : Option Bool :=
  let word := Text.lower s
  if word = "true" ∨ word = "1" then some true
  else if word = "false" ∨ word = "0" then some false
  else Option.none

/-- The number of a binary format that a text without blanks around it stands for. -/
def readBinary (f : Number.Format) (t : DataType) (s : String) :
    Except EncodingFault (Number.Binary f) :=
  (Number.Binary.read f s.toList).mapError (.notFloat s t)

/-- The number of an integer kind that a text without blanks around it stands for. -/
def readNumber (kind : IntKind) (s : String) : Except EncodingFault kind.Number :=
  match Number.readInteger kind.low kind.high kind.holds_zero s.toList with
  | .ok n => .ok ⟨n.val, n.property⟩
  | .error flaw => .error (.notInteger s (.integer kind) flaw)

/-- The value of the type that a text stands for. -/
def readValue (t : DataType) (s : String) : Except EncodingFault Value :=
  match t with
  | .none => .error .textOfNone
  | .bool =>
    match readBool? (Text.trim s) with
    | some b => .ok (.bool b)
    | Option.none => .error (.notBool s)
  | .integer kind => .integer kind <$> readNumber kind (Text.trim s)
  | .float => .float <$> readBinary .single t (Text.trim s)
  | .double => .double <$> readBinary .double t (Text.trim s)
  | .string width =>
    let bytes := Text.Utf8.encode s
    if bytes.length ≤ width.bytes then .ok (.string bytes)
    else .error (.stringTooLong bytes.length t)

def withoutFill (bytes : Bytes) : Bytes := (bytes.reverse.dropWhile (· = 0)).reverse

/-- The text of the value in the bytes of a field. -/
def writeValue (t : DataType) (data : Bytes) : Except DecodingFault String :=
  (t.unpack data).map fun
    | .string bytes => Text.Utf8.decodeLossy (withoutFill bytes)
    | v => v.text

end DataType

end RecordLog
