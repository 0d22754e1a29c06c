import RecordLog.Client.Append
import RecordLog.Proofs.Schema.Rows
import RecordLog.Proofs.Stream.Script
import RecordLog.Proofs.Types.IntegerTexts

/-!
# Rows of integers

A row of integers is appended as values or as their decimal texts. Both ways store the same record,
unless one of the integers goes into a column of 32-bit numbers and misleads there; and where all
columns hold numbers, a row is refused on both ways or on none.
-/

namespace RecordLog

def Value.IsInteger (v : Value) : Prop := ∃ k n, v = .integer k n

/-- Whether a column of 32-bit numbers has a misleading integer. -/
def MisleadsRow (columns : List Column) (values : List Value) : Prop :=
  ∃ p ∈ columns.zip values, ∃ n, p.2.integer? = some n ∧ p.1.type.Misleads n

variable {columns : List Column} {values : List Value} {data : Bytes}

theorem misleadsRow_cons {c : Column} {k : IntKind} {n : k.Number} :
    MisleadsRow (c :: columns) (.integer k n :: values) ↔
      c.type.Misleads n.val ∨ MisleadsRow columns values := by
  simp [MisleadsRow, Value.integer?]

/-- The texts of integers that columns take are read as values that they take, and the fields are
the same unless one of the integers misleads. -/
theorem exists_readColumns_of_packColumns (hvalues : ∀ v ∈ values, v.IsInteger)
    (hlength : values.length = columns.length) (h : packColumns columns values = .ok data) :
    ∃ decoded stored, readColumns columns (values.map Value.text) = .ok decoded ∧
      decoded.length = columns.length ∧ packColumns columns decoded = .ok stored ∧
      (stored = data ↔ ¬ MisleadsRow columns values) := by
  induction columns generalizing values data with
  | nil =>
    obtain rfl := List.eq_nil_of_length_eq_zero hlength
    obtain rfl := Except.ok.inj h
    exact ⟨[], [], rfl, rfl, rfl, by simp [MisleadsRow]⟩
  | cons c columns ih =>
    obtain ⟨v, values, rfl⟩ := List.exists_cons_of_length_eq_add_one hlength
    obtain ⟨⟨k, n, rfl⟩, htail⟩ := List.forall_mem_cons.mp hvalues
    obtain ⟨field, rest, hfield, hrest, rfl⟩ := packColumns_cons h
    obtain ⟨w, packed, hread, hpack, hsame⟩ := DataType.exists_readValue_of_pack n hfield
    obtain ⟨decoded, stored, hreads, hdecoded, hpacks, hsames⟩ :=
      ih htail (Nat.succ.inj hlength) hrest
    have hsize : packed.length = field.length := by
      rw [(DataType.unpack_pack hpack).1, (DataType.unpack_pack hfield).1]
    refine ⟨w :: decoded, packed ++ stored, ?_, ?_, ?_, ?_⟩
    · rw [List.map_cons, readColumns, hread, hreads]
      rfl
    · rw [List.length_cons, List.length_cons, hdecoded]
    · rw [packColumns, hpack, hpacks]
      rfl
    · rw [List.append_eq_append_iff_of_size_eq_left hsize, hsame, hsames, misleadsRow_cons, not_or]

/-- Columns of numbers take the integers whose texts they take. -/
theorem exists_packColumns_of_readColumns (hcolumns : ∀ c ∈ columns, c.type.IsNumeric)
    (hvalues : ∀ v ∈ values, v.IsInteger) (hlength : values.length = columns.length)
    {decoded : List Value} (h : readColumns columns (values.map Value.text) = .ok decoded) :
    ∃ data, packColumns columns values = .ok data := by
  induction columns generalizing values decoded with
  | nil => exact ⟨[], rfl⟩
  | cons c columns ih =>
    obtain ⟨v, values, rfl⟩ := List.exists_cons_of_length_eq_add_one hlength
    obtain ⟨⟨k, n, rfl⟩, htail⟩ := List.forall_mem_cons.mp hvalues
    obtain ⟨hnumeric, hothers⟩ := List.forall_mem_cons.mp hcolumns
    obtain ⟨w, rest, hread, hrest, rfl⟩ := readColumns_cons h
    obtain ⟨field, hfield⟩ := DataType.exists_pack_of_readValue hnumeric n hread
    obtain ⟨data, hdata⟩ := ih hothers htail (Nat.succ.inj hlength) hrest
    refine ⟨field ++ data, ?_⟩
    rw [packColumns, hfield, hdata]
    rfl

namespace Schema

variable {s : Schema} {now : UInt64}

/-- Whether a row has a misleading integer in one of the columns that it is for. -/
def Misleads (s : Schema) (values : List Value) : Prop :=
  ∃ columns, s.columnsFor? values.length = some columns ∧ MisleadsRow columns values

/-- A row of integers that is packed is also packed as the row of their texts, into the same record
unless one of the integers misleads. -/
theorem exists_packTexts_of_pack (hvalues : ∀ v ∈ values, v.IsInteger)
    (h : s.pack now values = .ok data) :
    ∃ stored, s.packTexts now (values.map Value.text) = .ok stored ∧
      (stored = data ↔ ¬ s.Misleads values) := by
  obtain ⟨columns, fields, hcolumns, hfields, rfl⟩ := pack_eq_ok_iff.mp h
  have hlength := (columnsFor?_eq_some hcolumns).1
  obtain ⟨decoded, stored, hread, hdecoded, hstored, hsame⟩ :=
    exists_readColumns_of_packColumns hvalues hlength.symm hfields
  have hmisleads : s.Misleads values ↔ MisleadsRow columns values := by
    simp [Misleads, hcolumns]
  refine ⟨s.stampFor now columns ++ stored, ?_, ?_⟩
  · apply packTexts_eq_ok_iff.mpr
    refine ⟨columns, decoded, by rw [List.length_map, hcolumns], hread, ?_⟩
    apply pack_eq_ok_iff.mpr
    exact ⟨columns, stored, by rw [hdecoded, hlength, hcolumns], hstored, rfl⟩
  · rw [List.append_cancel_left_eq, hsame, hmisleads]

/-- Where all columns hold numbers, a row of integers is packed if the row of their texts is. -/
theorem exists_pack_of_packTexts (hcolumns : ∀ c ∈ s.others, c.type.IsNumeric)
    (hvalues : ∀ v ∈ values, v.IsInteger)
    (h : s.packTexts now (values.map Value.text) = .ok data) :
    ∃ packed, s.pack now values = .ok packed := by
  obtain ⟨columns, decoded, hfor, hread, -⟩ := packTexts_eq_ok_iff.mp h
  rw [List.length_map] at hfor
  obtain ⟨hlength, hwhich⟩ := columnsFor?_eq_some hfor
  have hstamp : s.stamp.type.IsNumeric := by
    rw [s.stamp_type]
    trivial
  have hnumeric : ∀ c ∈ columns, c.type.IsNumeric := by
    rcases hwhich with rfl | rfl
    · exact List.forall_mem_cons.mpr ⟨hstamp, hcolumns⟩
    · exact hcolumns
  obtain ⟨fields, hfields⟩ := exists_packColumns_of_readColumns hnumeric hvalues hlength.symm hread
  exact ⟨_, pack_eq_ok_iff.mpr ⟨columns, fields, hfor, hfields, rfl⟩⟩

end Schema

namespace Client

open Number

/-- An integer is stored alike as a value and as its decimal text, but for a misleading one in a
column of 32-bit numbers, and integers of up to 53 bits do not mislead. What a column refuses on one
way, a column of numbers refuses on the other. So a row of integers is packed into the same record
on both ways, or refused on both ways, and it makes no difference how it is appended. -/
theorem appends_integers_alike :
    (∀ (t : DataType) (k : IntKind) (n : k.Number) field, t.pack (.integer k n) = .ok field →
      ∃ w stored, t.readValue (Value.integer k n).text = .ok w ∧ t.pack w = .ok stored ∧
        (stored = field ↔ ¬ (t = .float ∧ Misleading n.val))) ∧
    (∀ (t : DataType) (k : IntKind) (n : k.Number) cause, t.IsNumeric →
      t.pack (.integer k n) = .error cause →
      ∃ cause, t.readValue (Value.integer k n).text = .error cause) ∧
    (∀ n : Int, n.natAbs ≤ 2 ^ 53 → ¬ Misleading n) ∧
    (∀ (s : Schema) (now : UInt64) (values : List Value) data, (∀ v ∈ values, v.IsInteger) →
      s.pack now values = .ok data → ∃ stored,
        s.packTexts now (values.map Value.text) = .ok stored ∧
        (stored = data ↔ ¬ s.Misleads values)) ∧
    (∀ (s : Schema) (now : UInt64) (values : List Value) cause, (∀ v ∈ values, v.IsInteger) →
      (∀ c ∈ s.others, c.type.IsNumeric) → s.pack now values = .error cause →
      ∃ cause, s.packTexts now (values.map Value.text) = .error cause) ∧
    ∀ (σ : Type) [Service σ] (h : Handle) (now : UInt64) (values : List Value) data,
      (∀ v ∈ values, v.IsInteger) → h.schema.pack now values = .ok data →
      ¬ h.schema.Misleads values →
      (append h now values : Action σ UInt64) = appendTexts h now (values.map Value.text) := by
  refine ⟨?_, ?_, ?_, ?_, ?_, ?_⟩
  · intro t k n field h
    exact DataType.exists_readValue_of_pack n h
  · intro t k n cause ht hrefused
    cases hread : t.readValue (Value.integer k n).text with
    | error cause => exact ⟨cause, rfl⟩
    | ok w =>
      obtain ⟨field, hfield⟩ := DataType.exists_pack_of_readValue ht n hread
      cases hfield.symm.trans hrefused
  · intro n
    exact Binary.not_misleading
  · intro s now values data hvalues h
    exact Schema.exists_packTexts_of_pack hvalues h
  · intro s now values cause hvalues hcolumns hrefused
    cases htexts : s.packTexts now (values.map Value.text) with
    | error cause => exact ⟨cause, rfl⟩
    | ok stored =>
      obtain ⟨data, hdata⟩ := Schema.exists_pack_of_packTexts hcolumns hvalues htexts
      cases hdata.symm.trans hrefused
  · intro σ _ h now values data hvalues hpack hsound
    obtain ⟨stored, htexts, hsame⟩ := Schema.exists_packTexts_of_pack hvalues hpack
    rw [append, appendTexts, hpack, htexts, hsame.mpr hsound]

/-- Seven is stored alike, on its own and in a row behind 200; with minus one in its place the row
is refused on both ways. -/
theorem appends_integers_alike_of_small_numbers :
    let s : Schema := ⟨.timestamp,
      [⟨1, 8, .integer .uchar, "LEVEL", none, by decide⟩, ⟨2, 9, .float, "LOAD", none, by decide⟩],
      rfl, rfl, by repeat' constructor⟩
    let int (n : Int) (h : IntKind.int.Holds n) : Value := .integer .int ⟨n, h⟩
    let row : List Value := [int 200 (by decide), int 7 (by decide)]
    let refused : List Value := [int (-1) (by decide), int 7 (by decide)]
    (∃ w, DataType.float.readValue (int 7 (by decide)).text = .ok w ∧
      DataType.float.pack w = .ok [0, 0, 224, 64]) ∧
    (∃ cause, (DataType.integer .uchar).readValue (int (-1) (by decide)).text = .error cause) ∧
    s.packTexts 5 (row.map Value.text) = .ok [5, 0, 0, 0, 0, 0, 0, 0, 200, 0, 0, 224, 64] ∧
    (∃ cause, s.packTexts 5 (refused.map Value.text) = .error cause) ∧
    (append ⟨1, "cpu", s⟩ 5 row : Action Script UInt64) =
      appendTexts ⟨1, "cpu", s⟩ 5 (row.map Value.text) := by
  intro s int row refused
  obtain ⟨hfields, hrefusals, hsmall, hrows, hrefusedRows, happends⟩ := appends_integers_alike
  have hseven : DataType.float.pack (int 7 (by decide)) = .ok [0, 0, 224, 64] := by
    rw [DataType.pack_float_integer]
    decide +kernel
  have hpack : s.pack 5 row = .ok [5, 0, 0, 0, 0, 0, 0, 0, 200, 0, 0, 224, 64] := by
    decide +kernel
  have hminus : (DataType.integer .uchar).pack (int (-1) (by decide)) =
      .error (.integerRange (-1) (.integer .uchar)) := rfl
  have hrefused : s.pack 5 refused =
      .error (.encoding (.column "LEVEL" (.integerRange (-1) (.integer .uchar)))) := rfl
  have hsound : ¬ s.Misleads row := by
    rintro ⟨columns, hcolumns, p, hp, n, hn, -, hmisleading⟩
    have hvalue : p.2 ∈ row := (List.of_mem_zip hp).2
    have hbound : n.natAbs ≤ 2 ^ 53 := by
      rcases List.mem_pair.mp hvalue with heq | heq <;> rw [heq] at hn <;>
        obtain rfl := Option.some.inj hn <;> decide
    exact hsmall n hbound hmisleading
  have hints (m n : Int) hm hn : ∀ v ∈ [int m hm, int n hn], v.IsInteger := by
    intro v hv
    rcases List.mem_pair.mp hv with rfl | rfl <;> exact ⟨_, _, rfl⟩
  have hnumeric : ∀ c ∈ s.others, c.type.IsNumeric := by
    intro c hc
    rcases List.mem_pair.mp hc with rfl | rfl <;> trivial
  refine ⟨?_, hrefusals _ _ _ _ trivial hminus, ?_,
    hrefusedRows _ _ _ _ (hints _ _ _ _) hnumeric hrefused,
    happends Script _ _ _ _ (hints _ _ _ _) hpack hsound⟩
  · obtain ⟨w, stored, hread, hstored, hsame⟩ := hfields _ _ _ _ hseven
    refine ⟨w, hread, ?_⟩
    rw [hstored, hsame.mpr]
    exact fun hmisleads => hsmall _ (by decide) hmisleads.2
  · obtain ⟨stored, htexts, hsame⟩ := hrows _ _ _ _ (hints _ _ _ _) hpack
    rw [htexts, hsame.mpr hsound]

/-- An integer that is rounded up to 24 bits, as it lies past the middle between two neighbours, but
which has that middle as its rounding to 53 bits and goes down from there. -/
theorem pack_long_otherwise_than_text :
    let n : IntKind.long.Number := ⟨9007199791611905, by decide⟩
    DataType.float.pack (.integer .long n) = .ok [0, 0, 0, 90] ∧
    ∃ w, DataType.float.readValue (Value.integer .long n).text = .ok w ∧
      DataType.float.pack w = .ok [1, 0, 0, 90] := by
  intro n
  have hnative :
      DataType.packBinary ((Binary.ofInt .double n.val).convert .single) = [0, 0, 0, 90] := by
    decide +kernel
  have hwritten : DataType.packBinary (Binary.ofInt .single n.val) = [1, 0, 0, 90] := by
    decide +kernel
  refine ⟨?_, _, DataType.readValue_float n, ?_⟩
  · rw [DataType.pack_float_integer, hnative]
  · rw [← hwritten]
    rfl

end Client

end RecordLog
