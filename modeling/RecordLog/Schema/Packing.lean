import RecordLog.Schema.Basic
import RecordLog.Types.Written

/-!
# Packing records

A record is packed from a row of values, or of texts that are first read by their columns' types.
The row has one entry for each column, or it leaves the timestamp out, which is then the current
time. A fault names the column that it arose in; only a timestamp given as a value is packed
without its column's name.
-/

namespace RecordLog

/-- The fields of columns, packed one behind the other. -/
def packColumns : List Column → List Value → Except EncodingFault Bytes
  | c :: columns, v :: values =>
    match c.type.pack v with
    | .error cause => .error (.column c.name cause)
    | .ok field => (field ++ ·) <$> packColumns columns values
  | _, _ => .ok []

/-- The values that texts stand for, each read by the type of its column. -/
def readColumns : List Column → List String → Except EncodingFault (List Value)
  | c :: columns, s :: texts =>
    match c.type.readValue s with
    | .error cause => .error (.column c.name cause)
    | .ok v => (v :: ·) <$> readColumns columns texts
  | _, _ => .ok []

namespace Schema

/-- The reason to refuse a row with a number of entries that does not fit. -/
def wrongArity (s : Schema) (given : Nat) : Fault := .schema (.arity s.columns.length given)

/-- A record of values. The current time stands in for a timestamp that is not given. -/
def pack (s : Schema) (now : UInt64) (values : List Value) : Except Fault Bytes :=
  if values.length = s.others.length then
    ((Bytes.ofWord timestampSize now.toNat ++ ·) <$>
      packColumns s.others values).mapError .encoding
  else
    match values with
    | [] => .error (s.wrongArity 0)
    | stamp :: rest =>
      if rest.length = s.others.length then
        match DataType.timestamp.pack stamp with
        | .error cause => .error (.encoding cause)
        | .ok field => ((field ++ ·) <$> packColumns s.others rest).mapError .encoding
      else .error (s.wrongArity values.length)

/-- The columns that a row of texts has entries for. -/
def columnsFor? (s : Schema) (given : Nat) : Option (List Column) :=
  if given = s.columns.length then some s.columns
  else if given = s.others.length then some s.others
  else none

/-- A record of texts. The current time stands in for a timestamp that is not given. -/
def packTexts (s : Schema) (now : UInt64) (texts : List String) : Except Fault Bytes :=
  match s.columnsFor? texts.length with
  | none => .error (s.wrongArity texts.length)
  | some columns =>
    match readColumns columns texts with
    | .error cause => .error (.encoding cause)
    | .ok values => s.pack now values

end Schema

end RecordLog
