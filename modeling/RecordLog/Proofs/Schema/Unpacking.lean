import RecordLog.Proofs.Schema.Fields
import RecordLog.Proofs.Schema.Packing
import RecordLog.Proofs.Types.Unpacking

/-!
# Any record is packed again as it was

A record is bytes of the right number, whatever they are. Its values are always there, and packing
them writes the same bytes but for the truth values, for which only zero and one are written. So
the records that packing can give are just those in which every truth value is zero or one.
-/

namespace RecordLog

theorem mapM_unpack {columns : List Column} {unpack : Column → Except DecodingFault Value}
    {fields : Column → Bytes}
    (h : ∀ c ∈ columns, ∃ v, unpack c = .ok v ∧ c.type.pack v = .ok (fields c)) :
    ∃ values, columns.mapM unpack = .ok values ∧ values.length = columns.length ∧
      packColumns columns values = .ok (columns.flatMap fields) := by
  induction columns with
  | nil => exact ⟨[], rfl, rfl, rfl⟩
  | cons c rest ih =>
    obtain ⟨v, hunpack, hpack⟩ := h c List.mem_cons_self
    obtain ⟨values, hvalues, hlength, hpacked⟩ := ih fun d hd => h d (List.mem_cons_of_mem c hd)
    refine ⟨v :: values, ?_, ?_, ?_⟩
    · rw [List.mapM_cons, hunpack, hvalues]
      rfl
    · rw [List.length_cons, List.length_cons, hlength]
    · rw [packColumns, hpack, hpacked]
      rfl

namespace Schema

variable {s : Schema}

theorem pack_of_packColumns {now : UInt64} {values : List Value} {data : Bytes}
    (hlength : values.length = s.columns.length) (h : packColumns s.columns values = .ok data) :
    s.pack now values = .ok data := by
  obtain ⟨stamp, rest, rfl⟩ := List.exists_cons_of_length_eq_add_one hlength
  have hrest : rest.length = s.others.length := Nat.succ.inj hlength
  have hmore : ¬ (stamp :: rest).length = s.others.length := by
    rw [List.length_cons]
    omega
  obtain ⟨field, bytes, hfield, hbytes, rfl⟩ := packColumns_cons h
  rw [s.stamp_type] at hfield
  simp only [pack, if_neg hmore, if_pos hrest, hfield, hbytes]
  rfl

/-- Whether a position in a record is that of a truth value. -/
def isTruth (s : Schema) (i : Nat) : Bool := s.columns.any fun c => c.type = .bool && c.offset = i

theorem isTruth_iff {i : Nat} :
    s.isTruth i = true ↔ ∃ c ∈ s.columns, c.type = .bool ∧ c.offset = i := by
  simp [isTruth]

/-- The position of a byte in a field is that of a truth value only if the field is one. -/
theorem isTruth_offset_add {c : Column} {i : Nat} (hc : c ∈ s.columns) (hi : i < c.type.size) :
    s.isTruth (c.offset + i) = true ↔ c.type = .bool := by
  rw [isTruth_iff]
  constructor
  · rintro ⟨d, hd, hbool, hoffset⟩
    have hsize : d.type.size = 1 := by rw [hbool]; rfl
    rcases s.placed_columns.apart hc hd with rfl | hbefore | hbehind
    · exact hbool
    · unfold Column.finish at hbefore
      omega
    · unfold Column.finish at hbehind
      omega
  · intro hbool
    have hsize : c.type.size = 1 := by rw [hbool]; rfl
    exact ⟨c, hc, hbool, by omega⟩

/-- A byte of a record as it is packed. -/
def normalByte (s : Schema) (i : Nat) (b : UInt8) : UInt8 :=
  if s.isTruth i then DataType.truthByte b else b

theorem normal_slice {c : Column} {data : Bytes} (hc : c ∈ s.columns)
    (h : data.length = s.recordSize) :
    c.type.normal (c.slice data) =
      (c.slice data).mapIdx fun i => s.normalByte (c.offset + i) := by
  have hsize := length_slice hc h
  have hfield {i : Nat} (hi : i < (c.slice data).length) :
      s.isTruth (c.offset + i) = true ↔ c.type = .bool := isTruth_offset_add hc (hsize ▸ hi)
  by_cases hbool : c.type = .bool
  · rw [DataType.normal, if_pos hbool]
    apply List.ext_getElem (by simp)
    intro i hi _
    rw [List.length_map] at hi
    simp [normalByte, (hfield hi).mpr hbool]
  · rw [DataType.normal_of_ne_bool hbool]
    apply List.ext_getElem (by simp)
    intro i hi _
    simp [normalByte, mt (hfield hi).mp hbool]

/-- The values in any bytes of the right number are packed as these bytes, with one written for
every truth value that is not zero. -/
theorem pack_view (s : Schema) (now : UInt64) {data : Bytes} (h : data.length = s.recordSize) :
    ∃ r values packed, s.view data = .ok r ∧ r.values = .ok values ∧
      s.pack now values = .ok packed ∧
      (∀ i, packed[i]? = data[i]?.map fun b => if s.isTruth i ∧ b ≠ 0 then 1 else b) ∧
      (packed = data ↔ ∀ i b, data[i]? = some b → s.isTruth i → b = 0 ∨ b = 1) := by
  obtain ⟨r, hview, hvalues⟩ := values_view h
  obtain ⟨values, hdecoded, hlength, hpacked⟩ := mapM_unpack fun c hc =>
    DataType.pack_unpack c.type_ne_none (length_slice hc h)
  have hnormal : s.columns.flatMap (fun c => c.type.normal (c.slice data)) =
      data.mapIdx s.normalByte := by
    rw [← flatMap_mapIdx s.normalByte h]
    exact List.flatMap_congr fun c hc => normal_slice hc h
  rw [hnormal] at hpacked
  have hbyte (i : Nat) (b : UInt8) :
      s.normalByte i b = if s.isTruth i ∧ b ≠ 0 then 1 else b := by
    rw [normalByte, DataType.truthByte]
    split <;> split <;> simp_all
  refine ⟨r, values, _, hview, hvalues.trans hdecoded, pack_of_packColumns hlength hpacked,
    ?_, ?_⟩
  · intro i
    rw [List.getElem?_mapIdx, funext (hbyte i)]
  · constructor
    · intro hsame i b hb htruth
      have hget := congrArg (·[i]?) hsame
      simp only [List.getElem?_mapIdx, hb, Option.map_some, hbyte, htruth, true_and] at hget
      by_cases hzero : b = 0
      · exact .inl hzero
      · rw [if_pos hzero] at hget
        exact .inr (Option.some.inj hget).symm
    · intro htruth
      apply List.ext_getElem (by simp)
      intro i _ hi
      rw [List.getElem_mapIdx, hbyte]
      split
      · next hboth =>
        have hcases := htruth i data[i] (List.getElem?_eq_getElem hi) hboth.1
        exact (hcases.resolve_left hboth.2).symm
      · rfl

/-- A truth value that is neither zero nor one, a NaN with a message, and a string that is not
text. -/
theorem pack_view_of_stray_bytes :
    let s : Schema := ⟨.timestamp,
      [⟨1, 8, .bool, "UP", none, by decide⟩, ⟨2, 9, .float, "LOAD", none, by decide⟩,
        ⟨3, 13, .string ⟨3, by decide, by decide⟩, "HOST", none, by decide⟩],
      rfl, rfl, ⟨rfl, rfl, rfl, rfl, rfl, rfl, rfl, rfl, trivial⟩⟩
    let data : Bytes := [9, 0, 0, 0, 0, 0, 0, 0, 7, 1, 0, 160, 127, 255, 0, 0]
    let packed : Bytes := [9, 0, 0, 0, 0, 0, 0, 0, 1, 1, 0, 160, 127, 255, 0, 0]
    data.length = s.recordSize ∧ ∃ r values, s.view data = .ok r ∧ r.values = .ok values ∧
      s.pack 5 values = .ok packed ∧ packed ≠ data := by
  intro s data packed
  have hsize : data.length = s.recordSize := by decide
  obtain ⟨r, values, written, hview, hvalues, hpack, hbytes, -⟩ := pack_view s 5 hsize
  have hwritten : written = packed := by
    apply List.ext_getElem?
    intro i
    rw [hbytes i]
    by_cases hi : i < 16
    · revert i
      decide
    · have hdata : data[i]? = none := List.getElem?_eq_none (Nat.le_of_not_lt hi)
      have hpacked : packed[i]? = none := List.getElem?_eq_none (Nat.le_of_not_lt hi)
      rw [hdata, hpacked]
      rfl
  exact ⟨hsize, r, values, hview, hvalues, hwritten ▸ hpack, by decide⟩

end Schema

end RecordLog
