import RecordLog.Schema.Basic
import RecordLog.Types.Name

/-!
# What client and server exchange

Schemas are exchanged as lists of columns that carry the code of a type, a width and a name; the
place of a column and its bounds are not part of it. A log is created in one of three modes of
storage, which are numbered as well.
-/

namespace RecordLog

/-- How durable the records of a log are. -/
inductive StorageMode where
  /-- Records are held in memory only. -/
  | inMemory
  /-- Records are made durable without waiting for it. -/
  | durableRelaxed
  /-- An append returns when its records are durable. -/
  | durable
  deriving DecidableEq

namespace StorageMode

def code : StorageMode → Int
  | .inMemory => 0
  | .durableRelaxed => 1
  | .durable => 2

def ofCode? (code : Int) : Option StorageMode :=
  [.inMemory, .durableRelaxed, .durable].find? fun mode => mode.code = code

def name : StorageMode → String
  | .inMemory => "IN_MEMORY"
  | .durableRelaxed => "DURABLE_RELAXED"
  | .durable => "DURABLE"

end StorageMode

/-- A column as it is exchanged. -/
structure WireColumn where
  code : Int
  size : UInt32
  name : String
  deriving DecidableEq

def Column.toWire (c : Column) : WireColumn :=
  ⟨c.type.tag.code, UInt32.ofNat c.type.size, c.name⟩

def Schema.toWire (s : Schema) : List WireColumn := s.columns.map Column.toWire

/-- The tag with a given number, which may be any integer. -/
def WireColumn.tag? (c : WireColumn) : Option Tag :=
  if 0 ≤ c.code then Tag.ofCode? c.code.toNat else none

def WireColumn.type (c : WireColumn) : Except TypeFault DataType :=
  match c.tag? with
  | some tag => DataType.ofTag tag c.size
  | none => .error (.unknownCode c.code c.name)

def Builder.addWire : Builder → List WireColumn → Except Fault Builder
  | b, [] => .ok b
  | b, c :: rest =>
    match c.type with
    | .error cause => .error (.type cause)
    | .ok type =>
      match b.add type c.name with
      | .error cause => .error (.schema cause)
      | .ok b => b.addWire rest

def Schema.ofWire (columns : List WireColumn) : Except Fault Schema :=
  match Builder.start.addWire columns with
  | .error fault => .error fault
  | .ok b => (Schema.ofColumns b.columns).mapError .schema

end RecordLog
