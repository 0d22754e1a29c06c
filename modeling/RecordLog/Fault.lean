import RecordLog.Types.DataType
import RecordLog.Types.Value
import RecordLog.Number.Integer
import RecordLog.Number.Binary.Reader
import RecordLog.Text.Quoted

/-!
# Faults

Every operation that can fail says why. The causes are grouped by what went wrong: a type, the
shape of a schema, the packing or the unpacking of a value, the state of a connection, an
argument of a call, or the service at the other end. A function that can fail in one way only
returns the causes of that group; `Fault` is their union, and `Fault.message` is the single place
where the wording of all of them is laid down.
-/

namespace RecordLog

/-- Why there is no such data type. -/
inductive TypeFault where
  | emptyString
  | wrongWidth (tag : Tag) (width size : Nat)
  | malformedName (text : String)
  | unknownName (text : String)
  | missingWidth (text : String)
  | unknownCode (code : Int) (column : String)
  deriving DecidableEq

/-- What a declaration of a schema breaks off at. -/
inductive DeclarationFlaw where
  | expected (token : Char) (found : Option UInt8)
  | expectedName
  | expectedType
  | expectedSeparator (found : UInt8)
  | unterminated
  | trailing
  deriving DecidableEq

/-- Why columns do not make a schema, or a row does not match its schema. -/
inductive SchemaFault where
  | timestampType (type : DataType)
  | emptyName
  | columnOfNone (name : String)
  | duplicateName (name : String)
  | noTimestamp
  | misplaced (name : String) (index offset expectedIndex expectedOffset : Nat)
  | arity (columns given : Nat)
  | declaration (flaw : DeclarationFlaw) (position : Nat) (rest : Bytes)
  deriving DecidableEq

/-- Why a value or a text cannot be packed. -/
inductive EncodingFault where
  | intoNone
  | mismatch (value : Value) (type : DataType)
  | integerRange (n : Int) (type : DataType)
  | singleRange (x : Number.Double)
  | stringTooLong (size : Nat) (type : DataType)
  | textOfNone
  | notBool (text : String)
  | notInteger (text : String) (type : DataType) (flaw : Number.IntegerFlaw)
  | notFloat (text : String) (type : DataType) (flaw : Number.FloatFlaw)
  | column (name : String) (cause : EncodingFault)
  deriving DecidableEq

/-- Why bytes cannot be unpacked. -/
inductive DecodingFault where
  | fieldSize (type : DataType) (size : Nat)
  | ofNone
  | shortOfColumn (size : Nat) (column : String)
  | recordSize (size recordSize : Nat)
  | bufferSize (size recordSize : Nat)
  | pageSize (size recordSize : Nat)
  | readSize (size recordSize : Nat)
  | readOneSize (offset : UInt64) (size recordSize : Nat)
  | alert (flaw : Text.Utf8.Flaw)
  deriving DecidableEq

/-- Why an argument of a call is refused. -/
inductive ArgumentFault where
  | shortOfTimestamp (size : Nat)
  | recordSize (recordSize size : Nat)
  | blockOverflow (block count : UInt64) (recordSize : Nat)
  | blockSize (block : UInt64) (size : Nat) (count : UInt64) (recordSize : Nat)
  | countOverflow
  | countMismatch (claimed held : UInt64)
  | bucketSize (x : Number.Double)
  | window (start finish : Int64)
  | offset (offset : UInt64)
  deriving DecidableEq

/-- What is wrong with the service's side of an exchange. -/
inductive ServerFault where
  | reported (message : String)
  | negativeOffset (offset : Int64)
  | negativeCount (count : Int64)
  deriving DecidableEq

/-- Why an operation failed. -/
inductive Fault where
  | type (cause : TypeFault)
  | schema (cause : SchemaFault)
  | encoding (cause : EncodingFault)
  | decoding (cause : DecodingFault)
  | disconnected
  | argument (cause : ArgumentFault)
  | transport (message : String)
  | server (cause : ServerFault)
  | io (message : String)
  deriving DecidableEq

open Text (quoted quotedAlone)

def TypeFault.message : TypeFault → String
  | .emptyString => "STRING width must be greater than zero"
  | .wrongWidth tag width size => s!"{tag.name} has width {width}, got {size}"
  | .malformedName text => s!"Malformed type name {quoted text}"
  | .unknownName text => s!"Unknown type name {quoted text}"
  | .missingWidth text => s!"{quoted text} requires a width, e.g. STRING(16)"
  | .unknownCode code column => s!"unknown type id {code} for column {column}"

/-- A byte as it is quoted in messages: as the character with the same number. -/
def quotedByte (b : UInt8) : String := quotedAlone (Char.ofNat b.toNat)

def DeclarationFlaw.message : DeclarationFlaw → String
  | .expected token (some b) => s!"expected {quotedAlone token}, found {quotedByte b}"
  | .expected token none => s!"expected {quotedAlone token}, found end of input"
  | .expectedName => "expected column name"
  | .expectedType => "expected column type"
  | .expectedSeparator b => s!"expected ',' or '\x7d', found {quotedByte b}"
  | .unterminated => "unterminated schema, expected '\x7d'"
  | .trailing => "unexpected trailing input"

def SchemaFault.message : SchemaFault → String
  | .timestampType type =>
    s!"TIMESTAMP must be of type {DataType.timestamp.text}, got {type.text}"
  | .emptyName => "column name must not be empty"
  | .columnOfNone name => s!"column {name} cannot have type NONE"
  | .duplicateName name => s!"duplicate column name {name}"
  | .noTimestamp => s!"column 0 must be TIMESTAMP of type {DataType.timestamp.text}"
  | .misplaced name index offset expectedIndex expectedOffset =>
    s!"column {name} has index {index} and offset {offset}, " ++
      s!"expected {expectedIndex} and {expectedOffset}"
  | .arity columns given => s!"expected {columns - 1} or {columns} values, got {given}"
  | .declaration flaw position rest =>
    s!"{flaw.message} at byte {position} " ++
      s!"(remaining: {quoted (Text.Utf8.decodeLossy rest)})"

def EncodingFault.message : EncodingFault → String
  | .intoNone => "cannot pack a value into NONE"
  | .mismatch value type => s!"cannot pack {value.kind} value as {type.text}"
  | .integerRange n type => s!"value {n} out of range for {type.text}"
  | .singleRange x => s!"value {String.ofList x.text} out of range for {DataType.float.text}"
  | .stringTooLong size type => s!"string of {size} bytes exceeds {type.text}"
  | .textOfNone => "cannot parse a value of NONE"
  | .notBool text => s!"cannot parse {quoted text} as {DataType.bool.text}"
  | .notInteger text type flaw =>
    s!"cannot parse {quoted text} as {type.text}: {flaw.message}"
  | .notFloat text type flaw =>
    s!"cannot parse {quoted text} as {type.text}: {flaw.message}"
  | .column name cause => s!"column {name}: {cause.message}"

def DecodingFault.message : DecodingFault → String
  | .fieldSize type size => s!"{type.text} expects {type.size} bytes, got {size}"
  | .ofNone => "cannot unpack a value of NONE"
  | .shortOfColumn size column => s!"buffer of {size} bytes too short for column {column}"
  | .recordSize size width => s!"record buffer has {size} bytes, schema requires {width}"
  | .bufferSize size width =>
    s!"buffer of {size} bytes is not a multiple of record size {width}"
  | .pageSize size width => s!"page of {size} bytes is not a multiple of record size {width}"
  | .readSize size width =>
    s!"read returned {size} bytes, not a multiple of record size {width}"
  | .readOneSize offset size width =>
    s!"read at offset {offset} returned {size} bytes, expected {width}"
  | .alert flaw => s!"alert is not UTF-8: {flaw.message}"

def ArgumentFault.message : ArgumentFault → String
  | .shortOfTimestamp size =>
    s!"record of {size} bytes is shorter than its {DataType.timestamp.size}-byte timestamp"
  | .recordSize width size => s!"record must be {width} bytes, got {size}"
  | .blockOverflow block count width =>
    s!"block {block} count of {count} records of {width} bytes overflows"
  | .blockSize block size count width =>
    s!"block {block} holds {size} bytes for {count} records of {width} bytes"
  | .countOverflow => "batch record count overflows"
  | .countMismatch claimed held =>
    s!"batch claims {claimed} records but its blocks hold {held}"
  | .bucketSize x => s!"bucket size must be positive, got {String.ofList x.text}"
  | .window start finish => s!"time window begins at {start} after it ends at {finish}"
  | .offset value => s!"offset {value} out of range"

def ServerFault.message : ServerFault → String
  | .reported message => message
  | .negativeOffset offset => s!"server returned offset {offset}"
  | .negativeCount count => s!"negative record count {count}"

/-- The wording of a fault: what kind it is, and its cause. -/
def Fault.message : Fault → String
  | .type cause => s!"Invalid type: {cause.message}"
  | .schema cause => s!"Schema error: {cause.message}"
  | .encoding cause => s!"Encoding error: {cause.message}"
  | .decoding cause => s!"Decoding error: {cause.message}"
  | .disconnected => "Precondition failed: client is disconnected"
  | .argument cause => s!"Invalid argument: {cause.message}"
  | .transport message => s!"Transport error: {message}"
  | .server cause => s!"Server error: {cause.message}"
  | .io message => s!"I/O error: {message}"

end RecordLog
