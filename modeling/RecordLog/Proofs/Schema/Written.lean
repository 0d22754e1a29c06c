import RecordLog.Proofs.Schema.Unpacking
import RecordLog.Proofs.Types.Written

/-!
# Records are read back from their texts

The texts of a record are one for each column, the timestamp among them, so packing them does not
ask for the current time. Each text is read as a value that is packed as its field, and the fields
tile the record: what is packed is the record, byte for byte.
-/

namespace RecordLog

theorem mapM_writeValue {columns : List Column} {write : Column → Except DecodingFault String}
    {fields : Column → Bytes}
    (h : ∀ c ∈ columns, ∃ text v, write c = .ok text ∧ c.type.readValue text = .ok v ∧
      c.type.pack v = .ok (fields c)) :
    ∃ texts values, columns.mapM write = .ok texts ∧ texts.length = columns.length ∧
      readColumns columns texts = .ok values ∧ values.length = columns.length ∧
      packColumns columns values = .ok (columns.flatMap fields) := by
  induction columns with
  | nil => exact ⟨[], [], rfl, rfl, rfl, rfl, rfl⟩
  | cons c rest ih =>
    obtain ⟨text, v, hwrite, hread, hpack⟩ := h c List.mem_cons_self
    obtain ⟨texts, values, htexts, htextsLength, hvalues, hvaluesLength, hpacked⟩ :=
      ih fun d hd => h d (List.mem_cons_of_mem c hd)
    refine ⟨text :: texts, v :: values, ?_, ?_, ?_, ?_, ?_⟩
    · rw [List.mapM_cons, hwrite, htexts]
      rfl
    · rw [List.length_cons, List.length_cons, htextsLength]
    · rw [readColumns, hread, hvalues]
      rfl
    · rw [List.length_cons, List.length_cons, hvaluesLength]
    · rw [packColumns, hpack, hpacked]
      rfl

namespace Schema

theorem texts_view {s : Schema} {data : Bytes} (h : data.length = s.recordSize) :
    ∃ r, s.view data = .ok r ∧
      r.texts = s.columns.mapM fun c => c.type.writeValue (c.slice data) := by
  refine ⟨_, by rw [view, record, dif_pos h], ?_⟩
  rw [Record.texts, Record.fields, List.mapM_map]
  rfl

/-- A record whose fields are legible has a text for each column, and these are packed as the
record. -/
theorem packTexts_texts (s : Schema) (now : UInt64) {data : Bytes}
    (h : data.length = s.recordSize)
    (hlegible : ∀ c ∈ s.columns, c.type.Legible (c.slice data)) :
    ∃ r texts, s.view data = .ok r ∧ r.texts = .ok texts ∧ texts.length = s.columns.length ∧
      s.packTexts now texts = .ok data := by
  obtain ⟨r, hview, htexts⟩ := texts_view h
  obtain ⟨texts, values, hwritten, htextsLength, hread, hvaluesLength, hpacked⟩ :=
    mapM_writeValue fun c hc => DataType.pack_readValue_writeValue c.type_ne_none
      (length_slice hc h) (hlegible c hc)
  rw [flatMap_slice h] at hpacked
  refine ⟨r, texts, hview, htexts.trans hwritten, htextsLength, ?_⟩
  rw [packTexts, columnsFor?, if_pos htextsLength]
  dsimp only
  rw [hread]
  exact pack_of_packColumns hvaluesLength hpacked

/-- The least number of its kind, a negative zero, infinity, a string with blanks and a zero inside,
and one that is zeros only. -/
theorem packTexts_texts_of_each_form :
    let s : Schema := ⟨.timestamp,
      [⟨1, 8, .bool, "UP", none, by decide⟩, ⟨2, 9, .integer .char, "LEVEL", none, by decide⟩,
        ⟨3, 10, .float, "LOAD", none, by decide⟩, ⟨4, 14, .double, "PEAK", none, by decide⟩,
        ⟨5, 22, .string ⟨5, by decide, by decide⟩, "HOST", none, by decide⟩,
        ⟨6, 27, .string ⟨2, by decide, by decide⟩, "ZONE", none, by decide⟩],
      rfl, rfl, by repeat' constructor⟩
    let data : Bytes := [9, 0, 0, 0, 0, 0, 0, 0, 1, 128, 0, 0, 0, 128, 0, 0, 0, 0, 0, 0, 240, 127,
      32, 0, 195, 169, 0, 0, 0]
    data.length = s.recordSize ∧ (∀ c ∈ s.columns, c.type.Legible (c.slice data)) ∧
      ∃ r texts, s.view data = .ok r ∧ r.texts = .ok texts ∧ texts.length = 7 ∧
        s.packTexts 5 texts = .ok data := by
  intro s data
  have hsize : data.length = s.recordSize := by decide
  have hlegible : ∀ c ∈ s.columns, c.type.Legible (c.slice data) := by
    simp only [columns, s, List.forall_mem_cons]
    refine ⟨trivial, .inr rfl, trivial, ?_, ?_, ⟨" \x00é\x00", ?_⟩, ⟨"\x00\x00", ?_⟩, by simp⟩
    · change (Number.Binary.ofWord .single (Bytes.toWord [0, 0, 0, 128])).isNaN = false
      decide
    · change
        (Number.Binary.ofWord .double (Bytes.toWord [0, 0, 0, 0, 0, 0, 240, 127])).isNaN = false
      decide
    · rfl
    · rfl
  exact ⟨hsize, hlegible, packTexts_texts s 5 hsize hlegible⟩

end Schema

end RecordLog
