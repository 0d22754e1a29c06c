import RecordLog.Schema.Column
import RecordLog.Types.Packing
import RecordLog.Text.Blank

/-!
# Building a row of columns

Columns are added one by one; each lies directly behind the one before it. The timestamp is there
from the start, and naming it again is allowed as long as its type is the right one. Names are
kept without blanks around them and in capitals, and no two columns share one.
-/

namespace RecordLog

/-- A row of columns that grows at its end. -/
structure Builder where
  columns : List Column
  deriving DecidableEq

namespace Builder

def start : Builder := ⟨[Column.timestamp]⟩

/-- Whether a name is taken; the case of letters does not matter. -/
def has (b : Builder) (name : String) : Bool :=
  b.columns.any fun c => Text.upper c.name = Text.upper name

/-- The column that a name and a type make at the end of the row. -/
def next (b : Builder) (type : DataType) (name : String) (bounds : Option Bounds)
    (h : type ≠ .none) : Column :=
  ⟨b.columns.length, recordSize b.columns, type, Text.upper name, bounds, h⟩

/-- Adds a column whose name has no blanks around it. -/
def addTrimmed (b : Builder) (type : DataType) (name : String) (bounds : Option Bounds) :
    Except SchemaFault Builder :=
  if Text.upper name = timestampName then
    if type = .timestamp then .ok b else .error (.timestampType type)
  else if name = "" then .error .emptyName
  else if h : type = .none then .error (.columnOfNone name)
  else if b.has name then .error (.duplicateName (Text.upper name))
  else .ok ⟨b.columns ++ [b.next type name bounds h]⟩

def add (b : Builder) (type : DataType) (name : String) : Except SchemaFault Builder :=
  b.addTrimmed type (Text.trim name) none

/-- Adds a column with bounds, which have to be values of its type. -/
def addBounded (b : Builder) (type : DataType) (name : String) (bounds : Bounds) :
    Except Fault Builder := do
  let _ ← (type.pack bounds.min).mapError .encoding
  let _ ← (type.pack bounds.max).mapError .encoding
  (b.addTrimmed type (Text.trim name) (some bounds)).mapError .schema

end Builder

end RecordLog
