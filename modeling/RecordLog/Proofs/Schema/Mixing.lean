import RecordLog.Proofs.Schema.Building
import RecordLog.Proofs.Schema.Cutting
import RecordLog.Proofs.Schema.Decoding

/-!
# Columns of several builders

A row of columns is accepted as a schema wherever its columns come from, as long as it begins with
the timestamp and each column is where its index and its offset say. Whether a name is taken is
looked at by builders only: columns of different builders may share a name, which then finds the
first of them. So every column is found by its name just if no two columns share one, as it is with
the columns of one builder.
-/

namespace RecordLog

/-- Whether a column is one of the columns of some builder. -/
def Column.IsBuilt (c : Column) : Prop :=
  ∃ additions, c ∈ (Builder.start.run additions).columns

theorem Column.IsBuilt.keptName_name {c : Column} (h : c.IsBuilt) : keptName c.name = c.name := by
  obtain ⟨additions, hc⟩ := h
  exact ((Built.start.run additions).kept c hc).1

namespace Schema

variable {s : Schema} {columns : List Column} {c d : Column}

/-- The name of a column finds the first column that has it. -/
theorem column?_name_eq_iff (hbuilt : ∀ c ∈ s.columns, c.IsBuilt) (hc : c ∈ s.columns) :
    s.column? c.name = some d ↔ s.IsFirst d ∧ d.name = c.name := by
  rw [column?_eq_some_iff fun c hc => (hbuilt c hc).keptName_name, (hbuilt c hc).keptName_name]

/-- Columns of one builder have distinct names, in whatever order they are taken. -/
theorem nodup_names_of_one_builder {additions : List Addition}
    (h : ∀ c ∈ s.columns, c ∈ (Builder.start.run additions).columns) :
    (s.columns.map Column.name).Nodup := by
  have hdistinct := (Built.start.run additions).distinct
  apply nodup_names_iff.mpr
  intro c hc d hd hname
  exact List.inj_on_of_nodup_map hdistinct (h c hc) (h d hd) hname

/-- In a row of columns of any builders, the name of a column finds the first column that has it, as
a column and as a field of every record, and this is the column itself just if it is that first one.
So all columns are found by their names just if the names are distinct, as they are if the columns
are those of one builder, whatever their order. -/
theorem finds_first_of_name (hbuilt : ∀ c ∈ columns, c.IsBuilt) (h : ofColumns columns = .ok s) :
    (∀ c ∈ columns, ∃ d ∈ columns, d.name = c.name ∧
      (∀ e ∈ columns, e.name = c.name → d.index ≤ e.index) ∧ s.column? c.name = some d ∧
      ∀ r : Record, r.schema = s →
        r.get? c.name = r.at? d.index ∧ (r.get? c.name = r.at? c.index ↔ c = d)) ∧
    ((columns.map Column.name).Nodup ↔ ∀ c ∈ columns, s.column? c.name = some c ∧
      ∀ r : Record, r.schema = s → r.get? c.name = r.at? c.index) ∧
    ∀ additions, (∀ c ∈ columns, c ∈ (Builder.start.run additions).columns) →
      (columns.map Column.name).Nodup := by
  obtain rfl := columns_of_ofColumns h
  refine ⟨?_, ?_, ?_⟩
  · intro c hc
    obtain ⟨d, hfirst, hname⟩ := exists_isFirst hc
    have hfound := (column?_name_eq_iff hbuilt hc).mpr ⟨hfirst, hname⟩
    refine ⟨d, hfirst.1, hname, fun e he hsame => hfirst.2 e he (hsame.trans hname.symm),
      hfound, ?_⟩
    rintro r rfl
    exact ⟨(Record.get?_eq_at?_iff hfirst.1 hfirst.1 hfound).mpr rfl,
      Record.get?_eq_at?_iff hc hfirst.1 hfound⟩
  · rw [← forall_isFirst_iff]
    refine forall₂_congr fun c hc => ?_
    constructor
    · intro hfirst
      have hfound := (column?_name_eq_iff hbuilt hc).mpr ⟨hfirst, rfl⟩
      refine ⟨hfound, ?_⟩
      rintro r rfl
      exact (Record.get?_eq_at?_iff hc hc hfound).mpr rfl
    · intro hfinds
      exact ((column?_name_eq_iff hbuilt hc).mp hfinds.1).1
  · exact fun additions hone => nodup_names_of_one_builder hone

/-- Columns of two builders: one name that only one of them has, and one that both have, which finds
the first column and not the last. And columns of the second builder alone, but for its last one. -/
theorem finds_first_of_name_of_two_builders :
    let first : List Addition := [⟨.integer .int, "a", none⟩]
    let second : List Addition :=
      [⟨.integer .int, "x", none⟩, ⟨.integer .short, "b", none⟩, ⟨.integer .long, "A ", none⟩]
    let a : Column := ⟨1, 8, .integer .int, "A", none, by decide⟩
    let x : Column := ⟨1, 8, .integer .int, "X", none, by decide⟩
    let b : Column := ⟨2, 12, .integer .short, "B", none, by decide⟩
    let late : Column := ⟨3, 14, .integer .long, "A", none, by decide⟩
    (Builder.start.run first).columns = [.timestamp, a] ∧
    (Builder.start.run second).columns = [.timestamp, x, b, late] ∧
    (∃ s, ofColumns [.timestamp, a, b, late] = .ok s ∧
      s.column? b.name = some b ∧ s.column? late.name = some a ∧
      ∀ r : Record, r.schema = s → r.get? late.name = r.at? 1 ∧ r.get? late.name ≠ r.at? 3) ∧
    ∃ s, ofColumns [.timestamp, x, b] = .ok s ∧
      ∀ c ∈ [.timestamp, x, b], s.column? c.name = some c ∧
        ∀ r : Record, r.schema = s → r.get? c.name = r.at? c.index := by
  intro first second a x b late
  have hfirst : (Builder.start.run first).columns = [.timestamp, a] := by decide
  have hsecond : (Builder.start.run second).columns = [.timestamp, x, b, late] := by decide
  refine ⟨hfirst, hsecond, ?_, ?_⟩
  · let s : Schema := ⟨.timestamp, [a, b, late], rfl, rfl, by repeat' constructor⟩
    have hbuilt : ∀ c ∈ [.timestamp, a, b, late], c.IsBuilt := by
      intro c hc
      change c ∈ [.timestamp, a] ++ [b, late] at hc
      rcases List.mem_append.mp hc with hfront | hback
      · exact ⟨first, hfirst ▸ hfront⟩
      · have hmem := List.mem_append_right [.timestamp, x] hback
        exact ⟨second, hsecond ▸ hmem⟩
    obtain ⟨hfinds, -⟩ := finds_first_of_name hbuilt s.ofColumns_columns
    refine ⟨s, s.ofColumns_columns, ?_, ?_⟩
    · obtain ⟨d, hd, hname, -, hfound, -⟩ := hfinds b (by simp)
      simp only [List.mem_cons, List.not_mem_nil, or_false] at hd
      rcases hd with rfl | rfl | rfl | rfl
      · exact absurd hname (by decide)
      · exact absurd hname (by decide)
      · exact hfound
      · exact absurd hname (by decide)
    · obtain ⟨d, hd, hname, hleast, hfound, hrecord⟩ := hfinds late (by simp)
      simp only [List.mem_cons, List.not_mem_nil, or_false] at hd
      rcases hd with rfl | rfl | rfl | rfl
      · exact absurd hname (by decide)
      · refine ⟨hfound, ?_⟩
        intro r hr
        exact ⟨(hrecord r hr).1, mt (hrecord r hr).2.mp (by decide)⟩
      · exact absurd hname (by decide)
      · exact absurd (hleast a (by simp) rfl) (by decide)
  · let s : Schema := ⟨.timestamp, [x, b], rfl, rfl, by repeat' constructor⟩
    have hone : ∀ c ∈ [.timestamp, x, b], c ∈ (Builder.start.run second).columns := by
      rw [hsecond]
      simp
    obtain ⟨-, hiff, hdistinct⟩ :=
      finds_first_of_name (fun c hc => ⟨second, hone c hc⟩) s.ofColumns_columns
    exact ⟨s, s.ofColumns_columns, hiff.mp (hdistinct second hone)⟩

/-- Two builders make a column of one name each, and the columns are accepted next to each other.
The name of the second one finds the first one, in the schema and in a record. -/
theorem ofColumns_of_shared_name :
    let first : List Addition := [⟨.integer .int, "a", none⟩]
    let second : List Addition := [⟨.integer .int, "x", none⟩, ⟨.integer .short, "a", none⟩]
    let a : Column := ⟨1, 8, .integer .int, "A", none, by decide⟩
    let x : Column := ⟨1, 8, .integer .int, "X", none, by decide⟩
    let late : Column := ⟨2, 12, .integer .short, "A", none, by decide⟩
    (Builder.start.run first).columns = [.timestamp, a] ∧
    (Builder.start.run second).columns = [.timestamp, x, late] ∧
    ∃ s, ofColumns [.timestamp, a, late] = .ok s ∧
      ¬ ([Column.timestamp, a, late].map Column.name).Nodup ∧
      s.column? late.name = some a ∧ s.column? late.name ≠ some late ∧
      ∃ r, s.view [7, 0, 0, 0, 0, 0, 0, 0, 1, 0, 0, 0, 2, 0] = .ok r ∧
        r.get? late.name = some ⟨1, .integer .int, [1, 0, 0, 0]⟩ ∧
        r.at? late.index = some ⟨2, .integer .short, [2, 0]⟩ := by
  intro first second a x late
  let s : Schema := ⟨.timestamp, [a, late], rfl, rfl, by repeat' constructor⟩
  have hfound : s.column? late.name = some a := by decide
  refine ⟨by decide, by decide, s, s.ofColumns_columns, by decide, hfound, ?_, ?_⟩
  · rw [hfound]
    decide
  · let bytes : Bytes := [7, 0, 0, 0, 0, 0, 0, 0, 1, 0, 0, 0, 2, 0]
    have hsize : bytes.length = s.recordSize := rfl
    refine ⟨⟨s, bytes, hsize, true, none⟩, view_eq hsize true, ?_, rfl⟩
    rw [Record.get?, hfound]
    rfl

end Schema

end RecordLog
