import RecordLog.Proofs.Schema.Fields
import RecordLog.Proofs.Schema.Packing
import RecordLog.Proofs.Types.Unpacking

/-!
# Records are always decoded

Once a row of columns is accepted as a schema, any bytes of the right number are a record, and
everything that can be asked of the record has an answer. Its fields are cut out where the columns
say, within its bytes, and they tile it; each of them is a value of its column's type and has a
text, whatever its bytes are, and the first of them is the timestamp.
-/

namespace RecordLog

theorem exists_mapM {α β ε : Type} {f : α → Except ε β} {as : List α}
    (h : ∀ a ∈ as, ∃ b, f a = .ok b) :
    ∃ bs, as.mapM f = .ok bs ∧ List.Forall₂ (fun a b => f a = .ok b) as bs := by
  induction as with
  | nil => exact ⟨[], rfl, .nil⟩
  | cons a rest ih =>
    obtain ⟨b, hb⟩ := h a List.mem_cons_self
    obtain ⟨bs, hbs, hall⟩ := ih fun other hother => h other (List.mem_cons_of_mem a hother)
    refine ⟨b :: bs, ?_, .cons hb hall⟩
    rw [List.mapM_cons, hb, hbs]
    rfl

/-! ## Columns -/

namespace Column

variable {c : Column} {bytes field : Bytes}

theorem exists_slice?_iff :
    (∃ field, c.slice? bytes = .ok field) ↔ c.offset + c.type.size ≤ bytes.length := by
  unfold slice? finish
  split
  · next hwithin => simp [hwithin]
  · next hshort => simp [hshort]

/-- What is cut out of a buffer stands in it at the column's offset. -/
theorem slice?_eq_ok_iff :
    c.slice? bytes = .ok field ↔
      field.length = c.type.size ∧
        ∃ before behind, before.length = c.offset ∧ bytes = before ++ (field ++ behind) := by
  constructor
  · intro h
    have hwithin := exists_slice?_iff.mp ⟨field, h⟩
    have hcut : c.slice? bytes = .ok (c.slice bytes) := if_pos hwithin
    obtain rfl : c.slice bytes = field := Except.ok.inj (hcut.symm.trans h)
    refine ⟨?_, bytes.take c.offset, (bytes.drop c.offset).drop c.type.size, ?_, ?_⟩
    · rw [slice, List.length_take, List.length_drop]
      omega
    · exact List.length_take_of_le (by omega)
    · rw [slice, List.take_append_drop, List.take_append_drop]
  · rintro ⟨hsize, before, behind, hoffset, rfl⟩
    have hwithin : c.finish ≤ (before ++ (field ++ behind)).length := by
      simp only [finish, List.length_append]
      omega
    rw [slice?, if_pos hwithin, slice_append hoffset.symm hsize]

end Column

/-! ## Records -/

namespace Record

variable {r : Record} {c : Column}

theorem length_field (r : Record) (hc : c ∈ r.schema.columns) :
    (r.field c).data.length = c.type.size := Schema.length_slice hc r.size_eq

theorem slice?_data (r : Record) (hc : c ∈ r.schema.columns) :
    c.slice? r.data = .ok (r.field c).data := by
  have hwithin : c.finish ≤ r.data.length := by
    rw [r.size_eq]
    exact Schema.finish_le hc
  exact if_pos hwithin

theorem flatten_fields (r : Record) : (r.fields.map Field.data).flatten = r.data := by
  rw [fields, List.map_map, ← List.flatMap_def]
  exact Schema.flatMap_slice r.size_eq

theorem exists_value (hc : c ∈ r.schema.columns) : ∃ v, (r.field c).value = .ok v := by
  obtain ⟨v, hv, -⟩ := DataType.pack_unpack c.type_ne_none (r.length_field hc)
  exact ⟨v, hv⟩

theorem exists_text (hc : c ∈ r.schema.columns) : ∃ text, (r.field c).text = .ok text := by
  obtain ⟨v, hv⟩ := exists_value hc
  have hunpack : c.type.unpack (r.field c).data = .ok v := hv
  have htext : (r.field c).text = c.type.writeValue (r.field c).data := rfl
  rw [htext, DataType.writeValue, hunpack]
  exact ⟨_, rfl⟩

theorem exists_values (r : Record) :
    ∃ values, r.values = .ok values ∧
      List.Forall₂ (fun f v => f.value = .ok v) r.fields values := by
  apply exists_mapM
  intro f hf
  obtain ⟨c, hc, rfl⟩ := List.mem_map.mp hf
  exact exists_value hc

theorem exists_texts (r : Record) :
    ∃ texts, r.texts = .ok texts ∧
      List.Forall₂ (fun f text => f.text = .ok text) r.fields texts := by
  apply exists_mapM
  intro f hf
  obtain ⟨c, hc, rfl⟩ := List.mem_map.mp hf
  exact exists_text hc

/-- The timestamp is read from the same bytes as the first field. -/
theorem value_stamp (r : Record) :
    ∃ n, (r.field r.schema.stamp).value = .ok (.integer .ulong n) ∧ n.val = r.timestamp.toNat := by
  have hstamp : r.schema.stamp ∈ r.schema.columns := List.mem_cons_self
  have hslice : (r.field r.schema.stamp).data = r.data.take timestampSize := by
    have hoffset : r.schema.stamp.offset = 0 := r.schema.placed.2.1
    simp only [field, Column.slice, hoffset, r.schema.stamp_type, List.drop_zero]
    rfl
  have hlength := r.length_field hstamp
  rw [r.schema.stamp_type, hslice] at hlength
  have hword := Bytes.toWord_lt (r.data.take timestampSize)
  rw [hlength] at hword
  refine ⟨.ofBytes .ulong (r.data.take timestampSize), ?_, ?_⟩
  · have hvalue : (r.field r.schema.stamp).value =
        DataType.timestamp.unpack (r.data.take timestampSize) := by
      rw [← hslice, ← r.schema.stamp_type]
      rfl
    rw [hvalue]
    exact if_pos hlength
  · rw [IntKind.Number.ofBytes, IntKind.Number.val_ofWord hword, timestamp, timestampOf,
      UInt64.toNat_ofNat_of_lt' hword]
    rfl

/-- What can be asked of a record of columns, of which the bytes are known. -/
structure Decodes (r : Record) (columns : List Column) (bytes : Bytes) : Prop where
  data : r.data = bytes
  /-- No field is cut out from beyond the bytes. -/
  within : ∀ c ∈ columns, c.offset + c.type.size ≤ bytes.length
  fields : List.Forall₂ (fun f c => f.index = c.index ∧ f.type = c.type ∧
    f.data.length = c.type.size ∧ c.slice? bytes = .ok f.data) r.fields columns
  tile : (r.fields.map Field.data).flatten = bytes
  at? : ∀ i, r.at? i = r.fields[i]?
  values : ∃ values, r.values = .ok values ∧
    List.Forall₂ (fun f v => f.value = .ok v) r.fields values
  texts : ∃ texts, r.texts = .ok texts ∧
    List.Forall₂ (fun f text => f.text = .ok text) r.fields texts
  timestamp : ∃ (f : Field) (n : IntKind.ulong.Number), r.fields[0]? = some f ∧
    f.value = .ok (.integer .ulong n) ∧ n.val = r.timestamp.toNat

theorem decodes (r : Record) : r.Decodes r.schema.columns r.data where
  data := rfl
  within := by
    intro c hc
    rw [r.size_eq]
    exact Schema.finish_le hc
  fields := by
    rw [Record.fields, List.forall₂_map_left_iff, List.forall₂_same]
    intro c hc
    exact ⟨rfl, rfl, r.length_field hc, r.slice?_data hc⟩
  tile := r.flatten_fields
  at? i := List.getElem?_map.symm
  values := r.exists_values
  texts := r.exists_texts
  timestamp := by
    obtain ⟨n, hvalue, htimestamp⟩ := r.value_stamp
    exact ⟨_, n, rfl, hvalue, htimestamp⟩

end Record

namespace Schema

variable {s : Schema} {columns : List Column} {bytes : Bytes}

theorem columns_of_ofColumns (h : ofColumns columns = .ok s) : s.columns = columns := by
  unfold ofColumns at h
  split at h
  · cases h
  · split at h
    · split at h
      · obtain rfl := Except.ok.inj h
        rfl
      · cases h
    · cases h

theorem exists_record_iff {isView : Bool} :
    (∃ r, s.record bytes isView = .ok r) ↔ bytes.length = s.recordSize := by
  unfold record
  split
  · next hsize => simp [hsize]
  · next hsize => simp [hsize]

theorem of_record {isView : Bool} {r : Record} (h : s.record bytes isView = .ok r) :
    r.schema = s ∧ r.data = bytes := by
  unfold record at h
  split at h
  · obtain rfl := Except.ok.inj h
    exact ⟨rfl, rfl⟩
  · cases h

/-- Columns that are accepted as a schema decode any bytes that are as many as they ask for, and no
others. A single column is cut out of any buffer that reaches to its end. -/
theorem decodes_of_ofColumns (h : ofColumns columns = .ok s) :
    8 ≤ s.recordSize ∧
    (∀ bytes, ((∃ r, s.view bytes = .ok r) ↔ bytes.length = s.recordSize) ∧
      ((∃ r, s.own bytes = .ok r) ↔ bytes.length = s.recordSize) ∧
      ∀ r, s.view bytes = .ok r ∨ s.own bytes = .ok r → r.Decodes columns bytes) ∧
    ∀ c ∈ columns, ∀ bytes,
      ((∃ field, c.slice? bytes = .ok field) ↔ c.offset + c.type.size ≤ bytes.length) ∧
      ∀ field, c.slice? bytes = .ok field ↔
        field.length = c.type.size ∧
          ∃ before behind, before.length = c.offset ∧ bytes = before ++ (field ++ behind) := by
  refine ⟨?_, ?_, ?_⟩
  · rw [recordSize_eq]
    exact Nat.le_add_right 8 _
  · intro bytes
    refine ⟨exists_record_iff, exists_record_iff, ?_⟩
    intro r hr
    obtain ⟨rfl, rfl⟩ : r.schema = s ∧ r.data = bytes := hr.elim of_record of_record
    rw [← columns_of_ofColumns h]
    exact r.decodes
  · intro c _ bytes
    exact ⟨Column.exists_slice?_iff, fun field => Column.slice?_eq_ok_iff⟩

/-- Two columns of one name, which no single builder makes, and bytes that are not text. A column is
cut out of a buffer that goes on behind it, and not out of one that ends before it does. -/
theorem decodes_of_ofColumns_of_stray_bytes :
    let level : Column := ⟨1, 8, .bool, "LEVEL", none, by decide⟩
    let host : Column := ⟨2, 9, .string ⟨2, by decide, by decide⟩, "LEVEL", none, by decide⟩
    let bytes : Bytes := [9, 0, 0, 0, 0, 0, 0, 0, 7, 255, 254]
    ∃ s, ofColumns [.timestamp, level, host] = .ok s ∧
      (∃ r, s.view bytes = .ok r ∧ r.Decodes [.timestamp, level, host] bytes) ∧
      host.slice? (bytes ++ [1]) = .ok [255, 254] ∧
      ¬ ∃ field, host.slice? (bytes.take 10) = .ok field := by
  intro level host bytes
  let s : Schema := ⟨.timestamp, [level, host], rfl, rfl, by repeat' constructor⟩
  have hschema : ofColumns [.timestamp, level, host] = .ok s := s.ofColumns_columns
  obtain ⟨-, hrecords, hcolumns⟩ := decodes_of_ofColumns hschema
  obtain ⟨hview, -, hdecodes⟩ := hrecords bytes
  obtain ⟨r, hr⟩ := hview.mpr rfl
  have hhost : host ∈ [Column.timestamp, level, host] := by simp
  refine ⟨s, hschema, ⟨r, hr, hdecodes r (.inl hr)⟩, ?_, ?_⟩
  · apply ((hcolumns host hhost (bytes ++ [1])).2 _).mpr
    exact ⟨rfl, [9, 0, 0, 0, 0, 0, 0, 0, 7], [1], rfl, rfl⟩
  · rw [(hcolumns host hhost (bytes.take 10)).1]
    decide

end Schema

end RecordLog
