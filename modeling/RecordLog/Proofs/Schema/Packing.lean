import Mathlib.Data.List.Forall2
import RecordLog.Proofs.Types.Packing
import RecordLog.Record
import RecordLog.Schema.Packing

/-!
# Packed records come back

Fields are packed one behind the other, and they are unpacked from where their columns say that
they are. Both agree because the columns of a schema are placed without gaps: what was packed
before a field takes just the bytes in front of the field's offset.
-/

namespace RecordLog

/-- A field is cut out of a buffer that holds it at its column's offset. -/
theorem Column.slice_append {c : Column} {before field : Bytes} (hoffset : c.offset = before.length)
    (hsize : field.length = c.type.size) (rest : Bytes) :
    c.slice (before ++ (field ++ rest)) = field := by
  rw [slice, hoffset, List.drop_left, ← hsize, List.take_left]

theorem packColumns_cons {c : Column} {columns : List Column} {v : Value} {values : List Value}
    {data : Bytes} (h : packColumns (c :: columns) (v :: values) = .ok data) :
    ∃ field rest, c.type.pack v = .ok field ∧ packColumns columns values = .ok rest ∧
      data = field ++ rest := by
  rw [packColumns] at h
  split at h
  · cases h
  · next field hfield =>
    cases hrest : packColumns columns values with
    | error cause =>
      rw [hrest] at h
      cases h
    | ok rest =>
      rw [hrest] at h
      exact ⟨field, rest, hfield, rfl, (Except.ok.inj h).symm⟩

theorem length_packColumns {columns : List Column} {values : List Value} {data : Bytes}
    (hlength : values.length = columns.length) (h : packColumns columns values = .ok data) :
    data.length = recordSize columns := by
  induction columns generalizing values data with
  | nil =>
    obtain rfl : [] = data := Except.ok.inj h
    rfl
  | cons c columns ih =>
    obtain ⟨v, values, rfl⟩ := List.exists_cons_of_length_eq_add_one hlength
    obtain ⟨field, rest, hfield, hrest, rfl⟩ := packColumns_cons h
    have hsize := (DataType.unpack_pack hfield).1
    have hbehind := ih (Nat.succ.inj hlength) hrest
    rw [List.length_append, hsize, hbehind, recordSize, recordSize, List.map_cons, List.sum_cons]

/-- The row of values that columns give back for the row that was packed. -/
def StoresRow (columns : List Column) (values decoded : List Value) : Prop :=
  List.Forall₂ (fun (c, v) w => c.type.Stores v w) (columns.zip values) decoded

/-- Packed fields are unpacked from where their columns are placed, behind other bytes. -/
theorem unpack_packColumns {columns : List Column} {values : List Value} {index : Nat}
    {before data : Bytes} (hplaced : Placed index before.length columns)
    (hlength : values.length = columns.length) (hpack : packColumns columns values = .ok data) :
    data.length = recordSize columns ∧
      ∃ decoded, (columns.mapM fun c => c.type.unpack (c.slice (before ++ data))) = .ok decoded ∧
        StoresRow columns values decoded := by
  induction columns generalizing values index before data with
  | nil =>
    obtain rfl : [] = data := Except.ok.inj hpack
    exact ⟨rfl, [], rfl, .nil⟩
  | cons c columns ih =>
    obtain ⟨v, values, rfl⟩ := List.exists_cons_of_length_eq_add_one hlength
    have hlengths := length_packColumns hlength hpack
    obtain ⟨field, rest, hfield, hrest, rfl⟩ := packColumns_cons hpack
    obtain ⟨-, hoffset, hplaced⟩ := hplaced
    obtain ⟨hsize, w, hunpack, hstores⟩ := DataType.unpack_pack hfield
    have hbehind : before.length + c.type.size = (before ++ field).length := by
      rw [List.length_append, hsize]
    rw [hbehind] at hplaced
    -- For the columns behind this one, its field belongs to what stands in front.
    obtain ⟨-, decoded, hdecoded, hrow⟩ := ih hplaced (Nat.succ.inj hlength) hrest
    refine ⟨hlengths, w :: decoded, ?_, .cons hstores hrow⟩
    rw [List.append_assoc] at hdecoded
    rw [List.mapM_cons, Column.slice_append hoffset hsize, hunpack, hdecoded]
    rfl

namespace Schema

theorem misplaced?_eq_none {columns : List Column} {index offset : Nat}
    (h : Placed index offset columns) : misplaced? index offset columns = none := by
  induction columns generalizing index offset with
  | nil => rfl
  | cons c rest ih =>
    obtain ⟨hindex, hoffset, hrest⟩ := h
    rw [misplaced?, if_pos ⟨hindex, hoffset⟩]
    exact ih hrest

/-- The columns of a schema are accepted, and give that schema. -/
theorem ofColumns_columns (s : Schema) : ofColumns s.columns = .ok s := by
  have hstamp : s.stamp.name = timestampName ∧ s.stamp.type = .timestamp ∧ s.stamp.offset = 0 :=
    ⟨s.stamp_name, s.stamp_type, s.placed.2.1⟩
  have hplaced := misplaced?_eq_none s.placed
  rw [columns, ofColumns, dif_pos hstamp]
  split
  · rfl
  · next heq =>
    rw [hplaced] at heq
    cases heq

theorem append_eq_ok {field data : Bytes} {fields : Except EncodingFault Bytes}
    (h : ((field ++ ·) <$> fields).mapError Fault.encoding = .ok data) :
    ∃ rest, fields = .ok rest ∧ data = field ++ rest := by
  cases fields with
  | error cause => cases h
  | ok rest => exact ⟨rest, rfl, (Except.ok.inj h).symm⟩

/-- What a full row is packed to is what its columns pack. -/
theorem packColumns_of_pack {s : Schema} {now : UInt64} {values : List Value} {data : Bytes}
    (hlength : values.length = s.columns.length) (h : s.pack now values = .ok data) :
    packColumns s.columns values = .ok data := by
  obtain ⟨stamp, rest, rfl⟩ := List.exists_cons_of_length_eq_add_one hlength
  have hrest : rest.length = s.others.length := Nat.succ.inj hlength
  have hmore : ¬ (stamp :: rest).length = s.others.length := by
    rw [List.length_cons]
    omega
  simp only [pack, if_neg hmore, if_pos hrest] at h
  rw [columns, packColumns, s.stamp_type]
  split at h
  · cases h
  · obtain ⟨bytes, hpacked, rfl⟩ := append_eq_ok h
    rw [hpacked]
    rfl

theorem recordSize_eq (s : Schema) :
    s.recordSize = timestampSize + RecordLog.recordSize s.others := by
  rw [recordSize, columns, RecordLog.recordSize, List.map_cons, List.sum_cons, s.stamp_type]
  rfl

/-- Whatever is packed has the size of a record. -/
theorem length_of_pack {s : Schema} {now : UInt64} {values : List Value} {data : Bytes}
    (h : s.pack now values = .ok data) : data.length = s.recordSize := by
  rw [recordSize_eq]
  unfold pack at h
  split at h
  · next hothers =>
    obtain ⟨rest, hrest, rfl⟩ := append_eq_ok h
    rw [List.length_append, Bytes.length_ofWord, length_packColumns hothers hrest]
  · split at h
    · cases h
    · split at h
      · next hlength =>
        split at h
        · cases h
        · next field hfield =>
          obtain ⟨rest, hrest, rfl⟩ := append_eq_ok h
          have hsize := (DataType.unpack_pack hfield).1
          rw [List.length_append, hsize, length_packColumns hlength hrest]
          rfl
      · cases h

theorem length_of_packTexts {s : Schema} {now : UInt64} {texts : List String} {data : Bytes}
    (h : s.packTexts now texts = .ok data) : data.length = s.recordSize := by
  unfold packTexts at h
  split at h
  · cases h
  · split at h
    · cases h
    · exact length_of_pack h

/-- The current time, as the timestamp of a record. -/
def stampValue (now : UInt64) : Value :=
  .integer .ulong ⟨now.toNat, IntKind.holds_unsigned rfl now.toNat_lt⟩

theorem pack_stampValue (now : UInt64) :
    DataType.timestamp.pack (stampValue now) = .ok (Bytes.ofWord timestampSize now.toNat) := by
  have hholds : IntKind.ulong.Holds now.toNat := IntKind.holds_unsigned rfl now.toNat_lt
  have hword : (⟨now.toNat, hholds⟩ : IntKind.ulong.Number).toWord = now.toNat := by
    have hval := IntKind.Number.toWord_eq ⟨now.toNat, hholds⟩
    have hpos : ¬ (now.toNat : Int) < 0 := by omega
    rw [if_neg hpos] at hval
    exact Int.ofNat_inj.mp hval
  simp only [stampValue, DataType.timestamp, DataType.pack, Value.integer?, IntKind.number?,
    dif_pos hholds, IntKind.Number.toBytes, hword]
  rfl

theorem values_view {s : Schema} {data : Bytes} (h : data.length = s.recordSize) :
    ∃ r, s.view data = .ok r ∧
      r.values = s.columns.mapM fun c => c.type.unpack (c.slice data) := by
  refine ⟨_, by rw [view, record, dif_pos h], ?_⟩
  rw [Record.values, Record.fields, List.mapM_map]
  rfl

/-- A record that was packed from a full row is read back as the row that its columns store, and a
row without its timestamp is packed as with the current time in front. -/
theorem view_pack (s : Schema) (now : UInt64) (values : List Value) :
    (values.length = s.columns.length → ∀ data, s.pack now values = .ok data →
      data.length = s.recordSize ∧ ∃ r decoded, s.view data = .ok r ∧ r.values = .ok decoded ∧
        decoded.length = s.columns.length ∧ StoresRow s.columns values decoded) ∧
    (values.length + 1 = s.columns.length →
      s.pack now values = s.pack now (stampValue now :: values)) := by
  constructor
  · intro hlength data hpack
    have hcolumns := packColumns_of_pack hlength hpack
    have hplaced : Placed 0 ([] : Bytes).length s.columns := s.placed
    obtain ⟨hsize, decoded, hdecoded, hrow⟩ := unpack_packColumns hplaced hlength hcolumns
    obtain ⟨r, hview, hvalues⟩ := values_view hsize
    refine ⟨hsize, r, decoded, hview, hvalues.trans hdecoded, ?_, hrow⟩
    rw [← hrow.length_eq, List.length_zip, hlength, Nat.min_self]
  · intro hlength
    have hothers : values.length = s.others.length := Nat.succ.inj hlength
    have hmore : ¬ (stampValue now :: values).length = s.others.length := by
      rw [List.length_cons]
      omega
    simp only [pack, if_pos hothers, if_neg hmore, pack_stampValue]

/-- A timestamp, an integer below zero, a number that is narrowed and a string that is filled
up. -/
theorem view_pack_of_each_form :
    let s : Schema := ⟨.timestamp,
      [⟨1, 8, .integer .short, "LEVEL", none, by decide⟩, ⟨2, 10, .float, "LOAD", none, by decide⟩,
        ⟨3, 14, .string ⟨4, by decide, by decide⟩, "HOST", none, by decide⟩],
      rfl, rfl, ⟨rfl, rfl, rfl, rfl, rfl, rfl, rfl, rfl, trivial⟩⟩
    let row : List Value := [.integer .int ⟨-2, by decide⟩,
      .double ⟨false, 0x3FF8000000000000, by decide⟩, .string [104, 105]]
    let data : Bytes := [9, 0, 0, 0, 0, 0, 0, 0, 254, 255, 0, 0, 192, 63, 104, 105, 0, 0]
    s.pack 7 (stampValue 9 :: row) = .ok data ∧ data.length = s.recordSize ∧
      (∃ r decoded, s.view data = .ok r ∧ r.values = .ok decoded ∧
        decoded.length = s.columns.length ∧ StoresRow s.columns (stampValue 9 :: row) decoded) ∧
      s.pack 9 row = s.pack 9 (stampValue 9 :: row) := by
  intro s row data
  have hpack : s.pack 7 (stampValue 9 :: row) = .ok data := by decide +kernel
  obtain ⟨hsize, hview⟩ := (view_pack s 7 (stampValue 9 :: row)).1 rfl data hpack
  exact ⟨hpack, hsize, hview, (view_pack s 9 row).2 rfl⟩

end Schema

end RecordLog
