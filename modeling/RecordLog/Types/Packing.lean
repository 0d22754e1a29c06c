import RecordLog.Fault

/-!
# Packing values

A packed value takes exactly as many bytes as its type is wide. Integers are packed into any
integer type whose range they lie in and into both floating-point types, where they are
rounded; numbers of the binary formats into both floating-point types; strings are filled up
with zeros. Unpacking reads any bytes of the right number: a truth value is false only if its
byte is zero, and a string comes back with the zeros that fill it up.
-/

namespace RecordLog

namespace DataType

def packBinary {f : Number.Format} (x : Number.Binary f) : Bytes := Bytes.ofWord f.size x.toWord

/-- The number of 32 bits that a value is packed as. A number of that format keeps its bits;
any other is rounded, and must not become infinite by that. -/
def packSingle (v : Value) : Except EncodingFault Bytes :=
  match v with
  | .float x => .ok (packBinary x)
  | v =>
    match v.double? with
    | Option.none => .error (.mismatch v .float)
    | some x =>
      let narrow := x.convert .single
      if x.isFinite && narrow.isInfinite then .error (.singleRange x)
      else .ok (packBinary narrow)

/-- The bytes of a value as a field of the type. -/
def pack (t : DataType) (v : Value) : Except EncodingFault Bytes :=
  match t with
  | .none => .error .intoNone
  | .bool =>
    match v with
    | .bool b => .ok [if b then 1 else 0]
    | v => .error (.mismatch v t)
  | .integer kind =>
    match v.integer? with
    | Option.none => .error (.mismatch v t)
    | some n =>
      match kind.number? n with
      | some n => .ok n.toBytes
      | Option.none => .error (.integerRange n t)
  | .float => packSingle v
  | .double =>
    match v.double? with
    | some x => .ok (packBinary x)
    | Option.none => .error (.mismatch v t)
  | .string width =>
    match v with
    | .string bytes =>
      if bytes.length ≤ width.bytes then
        .ok (bytes ++ List.replicate (width.bytes - bytes.length) 0)
      else .error (.stringTooLong bytes.length t)
    | v => .error (.mismatch v t)

/-- Packs a value behind what a buffer already holds. A value that cannot be packed leaves the
buffer as it was. A string is copied into the buffer, which is then filled up. -/
def packBehind (t : DataType) (v : Value) (buffer : Bytes) :
    Except EncodingFault Unit × Bytes :=
  match t with
  | .string width =>
    match v with
    | .string bytes =>
      if bytes.length ≤ width.bytes then
        let longer := buffer ++ bytes
        (.ok (), Bytes.resize (longer.length + width.bytes - bytes.length) longer)
      else (.error (.stringTooLong bytes.length t), buffer)
    | v => (.error (.mismatch v t), buffer)
  | t =>
    match t.pack v with
    | .ok field => (.ok (), buffer ++ field)
    | .error cause => (.error cause, buffer)

/-- The value in the bytes of a field. -/
def unpack (t : DataType) (data : Bytes) : Except DecodingFault Value :=
  if data.length = t.size then
    match t with
    | .none => .error .ofNone
    | .bool => .ok (.bool (data.any (· ≠ 0)))
    | .integer kind => .ok (.integer kind (.ofBytes kind data))
    | .float => .ok (.float (.ofWord .single (Bytes.toWord data)))
    | .double => .ok (.double (.ofWord .double (Bytes.toWord data)))
    | .string _ => .ok (.string data)
  else .error (.fieldSize t data.length)

end DataType

end RecordLog
