import RecordLog.Schema.Builder

/-!
# Schemas

A schema is a row of columns that begins with the timestamp and in which every column is where
its index and its offset say. The columns may come from several builders, so this is checked
here, and what the check establishes is part of the type.
-/

namespace RecordLog

/-- The layout of the records of a log. -/
structure Schema where
  stamp : Column
  others : List Column
  stamp_name : stamp.name = timestampName
  stamp_type : stamp.type = .timestamp
  placed : Placed 0 0 (stamp :: others)
  deriving DecidableEq

namespace Schema

def columns (s : Schema) : List Column := s.stamp :: s.others

def recordSize (s : Schema) : Nat := RecordLog.recordSize s.columns

/-- The first column that is not where it should be, as the reason to refuse the row. -/
def misplaced? : Nat → Nat → List Column → Option SchemaFault
  | _, _, [] => none
  | index, offset, c :: rest =>
    if c.index = index ∧ c.offset = offset then
      misplaced? (index + 1) (offset + c.type.size) rest
    else some (.misplaced c.name c.index c.offset index offset)

theorem placed_of_misplaced? {index offset : Nat} {columns : List Column}
    (h : misplaced? index offset columns = none) : Placed index offset columns := by
  induction columns generalizing index offset with
  | nil => trivial
  | cons c rest ih =>
    rw [misplaced?] at h
    split at h
    · next hc => exact ⟨hc.1, hc.2, ih h⟩
    · simp at h

def ofColumns : List Column → Except SchemaFault Schema
  | [] => .error .noTimestamp
  | stamp :: others =>
    if h : stamp.name = timestampName ∧ stamp.type = .timestamp ∧ stamp.offset = 0 then
      match hm : misplaced? 0 0 (stamp :: others) with
      | none => .ok ⟨stamp, others, h.1, h.2.1, placed_of_misplaced? hm⟩
      | some cause => .error cause
    else .error .noTimestamp

/-- The column with a given name; blanks around the name and the case of letters do not matter. -/
def column? (s : Schema) (name : String) : Option Column :=
  s.columns.find? fun c => Text.upper c.name = Text.upper (Text.trim name)

/-- Equality of schemas, with bounds compared as values. -/
def equal (a b : Schema) : Bool :=
  a.columns.length = b.columns.length &&
    (a.columns.zip b.columns).all fun (c, d) => c.equal d

/-- A record holds its timestamp, so it is not empty. -/
theorem recordSize_pos (s : Schema) : 0 < s.recordSize := by
  have h : 0 < s.stamp.type.size := DataType.size_pos s.stamp.type_ne_none
  simp only [recordSize, RecordLog.recordSize, columns, List.map_cons, List.sum_cons]
  omega

end Schema

end RecordLog
