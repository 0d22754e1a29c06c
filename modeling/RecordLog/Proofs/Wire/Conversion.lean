import RecordLog.Proofs.Schema.Building
import RecordLog.Proofs.Types.Name
import RecordLog.Wire

/-!
# Schemas as they are exchanged

A schema that a builder made comes back from its exchanged form with everything but its bounds:
keeping a name that is kept already changes nothing, and the timestamp at the front is absorbed by
the one that a builder starts with. The other way round, a list that is accepted comes back with
the timestamp at its front, wherever it was, and with every name as it is kept.
-/

namespace RecordLog

/-! ## Codes -/

theorem Tag.code_of_ofCode? {code : Nat} {tag : Tag} (h : Tag.ofCode? code = some tag) :
    tag.code = code := by
  have hplaces : ∀ i : Fin Tag.all.length, (Tag.all.get i).code = i := by decide
  obtain ⟨hlength, rfl⟩ := List.getElem?_eq_some_iff.mp h
  exact hplaces ⟨code, hlength⟩

/-! ## Columns -/

theorem Column.type_toWire (c : Column) : c.toWire.type = .ok c.type := by
  have htag : c.toWire.tag? = some c.type.tag := by
    have hcode : 0 ≤ c.toWire.code := Int.natCast_nonneg _
    rw [WireColumn.tag?, if_pos hcode]
    exact Tag.ofCode?_code c.type.tag
  rw [WireColumn.type, htag]
  exact DataType.ofTag_tag c.type

namespace WireColumn

/-- Whether the column names the timestamp. -/
def IsStamp (c : WireColumn) : Prop := keptName c.name = timestampName

instance (c : WireColumn) : Decidable c.IsStamp := inferInstanceAs (Decidable (_ = _))

/-- The column under the name that it is kept as. -/
def kept (c : WireColumn) : WireColumn := { c with name := keptName c.name }

theorem of_type {c : WireColumn} {type : DataType} (h : c.type = .ok type) :
    (type.tag.code : Int) = c.code ∧ type.size = c.size.toNat := by
  unfold WireColumn.type at h
  split at h
  · next tag htag =>
    obtain ⟨rfl, hsize⟩ := DataType.of_ofTag h
    unfold tag? at htag
    split at htag
    · next hcode =>
      have hplace := Tag.code_of_ofCode? htag
      exact ⟨by omega, hsize⟩
    · cases htag
  · cases h

theorem toWire_eq_kept {c : WireColumn} {d : Column} (htype : c.type = .ok d.type)
    (hname : d.name = keptName c.name) : d.toWire = c.kept := by
  obtain ⟨hcode, hsize⟩ := of_type htype
  rw [Column.toWire, hcode, hsize, UInt32.ofNat_toNat, hname, kept]

end WireColumn

/-! ## Lists that are accepted -/

namespace Builder

variable {b grown : Builder} {c : WireColumn} {columns : List WireColumn}

theorem add_eq_ok_iff {type : DataType} {name : String} :
    b.add type name = .ok grown ↔ Added b ⟨type, name, none⟩ grown :=
  addTrimmed_eq_ok_iff (a := ⟨type, name, none⟩)

theorem addWire_cons_eq_ok_iff :
    b.addWire (c :: columns) = .ok grown ↔
      ∃ type next, c.type = .ok type ∧ Added b ⟨type, c.name, none⟩ next ∧
        next.addWire columns = .ok grown := by
  rw [addWire]
  constructor
  · intro h
    split at h
    · cases h
    · next type htype =>
      split at h
      · cases h
      · next next hnext => exact ⟨type, next, htype, add_eq_ok_iff.mp hnext, h⟩
  · rintro ⟨type, next, htype, hadded, hrest⟩
    simp only [htype, add_eq_ok_iff.mpr hadded, hrest]

/-- A builder takes up every column of an accepted list but the timestamp, which it has. -/
theorem toWire_addWire (h : b.addWire columns = .ok grown) :
    grown.columns.map Column.toWire =
      b.columns.map Column.toWire ++
        (columns.filter fun c => ¬ c.IsStamp).map WireColumn.kept := by
  induction columns generalizing b with
  | nil =>
    obtain rfl := Except.ok.inj h
    exact (List.append_nil _).symm
  | cons c rest ih =>
    obtain ⟨type, next, htype, hadded, hrest⟩ := addWire_cons_eq_ok_iff.mp h
    rw [ih hrest]
    cases hadded with
    | timestamp hname =>
      have hstamp : c.IsStamp := hname
      rw [List.filter_cons_of_neg (by simpa using hstamp)]
    | column hname hnonempty hfree hsome =>
      have hother : ¬ c.IsStamp := hname
      rw [List.filter_cons_of_pos (by simpa using hother), List.map_append, List.append_assoc]
      congr 1
      exact congrArg (· :: _) (WireColumn.toWire_eq_kept htype rfl)

end Builder

theorem Built.addWire {b grown : Builder} {columns : List WireColumn} (hbuilt : Built b.columns)
    (h : b.addWire columns = .ok grown) : Built grown.columns := by
  induction columns generalizing b with
  | nil =>
    obtain rfl := Except.ok.inj h
    exact hbuilt
  | cons c rest ih =>
    obtain ⟨type, next, -, hadded, hrest⟩ := Builder.addWire_cons_eq_ok_iff.mp h
    exact ih (hbuilt.added hadded) hrest

/-- A list is read as the schema whose row a builder makes of it. -/
theorem Schema.ofWire_of_addWire {columns : List WireColumn} {s : Schema}
    (h : Builder.start.addWire columns = .ok ⟨s.columns⟩) : ofWire columns = .ok s := by
  simp only [ofWire, h, ofColumns_columns, Except.mapError]

/-- A schema that is read has all columns of its list but those that name the timestamp, behind
the one that every schema has. -/
theorem Schema.toWire_of_ofWire {columns : List WireColumn} {s : Schema}
    (h : ofWire columns = .ok s) :
    Built s.columns ∧
      s.toWire = Column.timestamp.toWire ::
        (columns.filter fun c => ¬ c.IsStamp).map WireColumn.kept := by
  unfold ofWire at h
  split at h
  · cases h
  · next grown hgrown =>
    have hbuilt : Built grown.columns := Built.start.addWire hgrown
    obtain ⟨made, hmade, hcolumns⟩ := hbuilt.ofColumns
    rw [mapError_eq_ok_iff, hmade] at h
    obtain rfl := Except.ok.inj h
    rw [toWire, hcolumns]
    exact ⟨hbuilt, Builder.toWire_addWire hgrown⟩

/-! ## Schemas that come back -/

def Column.withoutBounds (c : Column) : Column := { c with bounds := none }

theorem recordSize_map_withoutBounds (columns : List Column) :
    recordSize (columns.map Column.withoutBounds) = recordSize columns := by
  rw [recordSize, recordSize, List.map_map]
  rfl

theorem Placed.withoutBounds {columns : List Column} {index offset : Nat}
    (h : Placed index offset columns) :
    Placed index offset (columns.map Column.withoutBounds) := by
  induction columns generalizing index offset with
  | nil => trivial
  | cons c rest ih =>
    obtain ⟨hindex, hoffset, hrest⟩ := h
    exact ⟨hindex, hoffset, ih hrest⟩

namespace Schema

/-- The same layout, with no bounds on any column. -/
def withoutBounds (s : Schema) : Schema where
  stamp := s.stamp.withoutBounds
  others := s.others.map Column.withoutBounds
  stamp_name := s.stamp_name
  stamp_type := s.stamp_type
  placed := s.placed.withoutBounds

theorem columns_withoutBounds (s : Schema) :
    s.withoutBounds.columns = s.columns.map Column.withoutBounds := rfl

end Schema

namespace Built

variable {before behind : List Column} {c : Column}

/-- A column behind others has a name that none of them has. -/
theorem name_ne (h : Built (before ++ behind)) {d : Column} (hc : c ∈ behind) (hd : d ∈ before) :
    d.name ≠ c.name := by
  have hdistinct := h.distinct
  rw [List.map_append, List.nodup_append] at hdistinct
  exact hdistinct.2.2 d.name (List.mem_map_of_mem hd) c.name (List.mem_map_of_mem hc)

/-- A column of a row can be added to the columns in front of it, and is then what it was but
for its bounds. -/
theorem added_withoutBounds (h : Built (before ++ c :: behind)) (hfirst : .timestamp ∈ before) :
    Added ⟨before.map Column.withoutBounds⟩ ⟨c.type, c.name, none⟩
      ⟨(before ++ [c]).map Column.withoutBounds⟩ := by
  have hc : c ∈ before ++ c :: behind := List.mem_append_right _ List.mem_cons_self
  obtain ⟨hkept, hnonempty⟩ := h.kept c hc
  have hother : keptName c.name ≠ timestampName := by
    rw [hkept]
    exact (h.name_ne List.mem_cons_self hfirst).symm
  have htrim : Text.trim c.name ≠ "" := by
    rw [h.trim_name hc]
    exact hnonempty
  have hfree : ∀ d ∈ before.map Column.withoutBounds, Text.upper d.name ≠ keptName c.name := by
    intro _ hbare
    obtain ⟨d, hd, rfl⟩ := List.mem_map.mp hbare
    have hupper : Text.upper d.withoutBounds.name = d.name :=
      h.upper_name (c := d) (List.mem_append_left _ hd)
    rw [hupper, hkept]
    exact h.name_ne List.mem_cons_self hd
  -- The column is next in line: its index and its offset are those of the builder's end.
  have hplace : (before ++ c :: behind)[before.length]? = some c := by simp
  obtain ⟨hindex, hoffset⟩ := h.placed.getElem? hplace
  have hnext : Builder.next ⟨before.map Column.withoutBounds⟩ c.type (Text.trim c.name) none
      c.type_ne_none = c.withoutBounds := by
    rw [Builder.next, Column.withoutBounds]
    simp only [List.length_map, recordSize_map_withoutBounds, Column.mk.injEq, and_true, true_and]
    rw [List.take_left, Nat.zero_add] at hoffset
    exact ⟨by omega, hoffset.symm, hkept⟩
  have hadded := Added.column (b := ⟨before.map Column.withoutBounds⟩)
    (a := ⟨c.type, c.name, none⟩) hother htrim hfree c.type_ne_none
  rw [hnext] at hadded
  rw [List.map_append]
  exact hadded

/-- The columns of a row are taken up one after the other. -/
theorem addWire_toWire (h : Built (before ++ behind)) (hfirst : .timestamp ∈ before) :
    Builder.addWire ⟨before.map Column.withoutBounds⟩ (behind.map Column.toWire) =
      .ok ⟨(before ++ behind).map Column.withoutBounds⟩ := by
  -- In each step one column moves from those behind to those that the builder has.
  induction behind generalizing before with
  | nil =>
    rw [List.append_nil]
    rfl
  | cons c rest ih =>
    have hnext : before ++ c :: rest = (before ++ [c]) ++ rest := by simp
    rw [List.map_cons, Builder.addWire_cons_eq_ok_iff]
    refine ⟨c.type, _, c.type_toWire, h.added_withoutBounds hfirst, ?_⟩
    rw [hnext] at h ⊢
    exact ih h (List.mem_append_left _ hfirst)

/-- The exchanged form of a schema that was built is read as the schema without its bounds. -/
theorem ofWire_toWire {s : Schema} (h : Built s.columns) :
    Schema.ofWire s.toWire = .ok s.withoutBounds := by
  obtain ⟨others, hcolumns⟩ := List.head?_eq_some_iff.mp h.first
  have hstamp : Added Builder.start ⟨.timestamp, Column.timestamp.toWire.name, none⟩
      Builder.start := .timestamp (by decide) rfl
  apply Schema.ofWire_of_addWire
  rw [Schema.columns_withoutBounds, Schema.toWire, hcolumns, List.map_cons,
    Builder.addWire_cons_eq_ok_iff]
  refine ⟨.timestamp, Builder.start, Column.timestamp.type_toWire, hstamp, ?_⟩
  rw [hcolumns] at h
  have hrow : Built ([.timestamp] ++ others) := h
  exact hrow.addWire_toWire (List.mem_singleton_self _)

end Built

namespace Schema

/-- A schema that a builder made, by any requests, is read from its exchanged form without its
bounds. A list that is read as a schema is exchanged as the timestamp and, behind it, the columns
that do not name the timestamp, in their order and under the names that they are kept as. -/
theorem wire_round_trips :
    (∀ additions, ∃ s, ofColumns (Builder.start.run additions).columns = .ok s ∧
      ofWire s.toWire = .ok s.withoutBounds) ∧
    ∀ columns s, ofWire columns = .ok s →
      s.toWire = ⟨9, 8, "TIMESTAMP"⟩ ::
        (columns.filter fun c => ¬ c.IsStamp).map WireColumn.kept := by
  refine ⟨?_, fun columns s h => (toWire_of_ofWire h).2⟩
  intro additions
  have hbuilt := Built.start.run additions
  obtain ⟨s, hschema, hcolumns⟩ := hbuilt.ofColumns
  rw [← hcolumns] at hbuilt
  exact ⟨s, hschema, hbuilt.ofWire_toWire⟩

/-- Bounds on a column of the row, and a list with the timestamp in the middle. -/
theorem wire_round_trips_of_late_stamp :
    let bounds : Bounds :=
      ⟨.integer .uchar ⟨0, by decide⟩, .integer .uchar ⟨9, by decide⟩⟩
    let level : Column := ⟨1, 8, .integer .uchar, "LEVEL", none, by decide⟩
    let columns : List WireColumn := [⟨6, 4, " v "⟩, ⟨9, 8, "Timestamp"⟩, ⟨12, 3, "msg"⟩]
    (∃ s,
      ofColumns (Builder.start.run [⟨.integer .uchar, " level", some bounds⟩]).columns = .ok s ∧
      ofWire s.toWire = .ok s.withoutBounds ∧
      s.columns = [.timestamp, { level with bounds := some bounds }] ∧
      s.withoutBounds.columns = [.timestamp, level]) ∧
    ∃ s, ofWire columns = .ok s ∧
      s.toWire = [⟨9, 8, "TIMESTAMP"⟩, ⟨6, 4, "V"⟩, ⟨12, 3, "MSG"⟩] := by
  intro bounds level columns
  obtain ⟨hforth, hback⟩ := wire_round_trips
  constructor
  · obtain ⟨s, hschema, hread⟩ := hforth [⟨.integer .uchar, " level", some bounds⟩]
    have hrow : (Builder.start.run [⟨.integer .uchar, " level", some bounds⟩]).columns =
        [.timestamp, { level with bounds := some bounds }] := by decide
    obtain ⟨made, hmade, hcolumns⟩ :=
      (Built.start.run [⟨.integer .uchar, " level", some bounds⟩]).ofColumns
    obtain rfl : made = s := Except.ok.inj (hmade.symm.trans hschema)
    rw [hrow] at hcolumns
    refine ⟨made, hschema, hread, hcolumns, ?_⟩
    rw [columns_withoutBounds, hcolumns]
    rfl
  · let v : Column := ⟨1, 8, .integer .int, "V", none, by decide⟩
    let msg : Column := ⟨2, 12, .string ⟨3, by decide, by decide⟩, "MSG", none, by decide⟩
    let s : Schema := ⟨.timestamp, [v, msg], rfl, rfl, rfl, rfl, rfl, rfl, rfl, rfl, trivial⟩
    have hread : ofWire columns = .ok s := ofWire_of_addWire (by decide)
    exact ⟨s, hread, hback columns s hread⟩

end Schema

end RecordLog
