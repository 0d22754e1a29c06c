import RecordLog.Proofs.Wire.Conversion

/-!
# The layout that a list declares

Records are exchanged in the layout of the list of columns that the other side declares. A schema
that is read from the list has this layout only if the timestamp stands at the front of the list
and nowhere else: a builder has its own timestamp at the front and absorbs every other, so that
all columns in front of an absorbed one are shifted.
-/

namespace RecordLog

attribute [local instance (high)] Zero.ofOfNat0

/-- The bytes that the columns of a list take, by the widths that they declare. -/
def wireSize (columns : List WireColumn) : Nat := (columns.map (·.size.toNat)).sum

/-- Whether a schema has the layout of a list: it takes as many bytes as the list declares, and
finds every column of the list behind the bytes of those in front of it. -/
structure Schema.LaysOut (s : Schema) (columns : List WireColumn) : Prop where
  size : s.recordSize = wireSize columns
  found : ∀ i c, columns[i]? = some c →
    ∃ d, s.column? c.name = some d ∧ d.offset = wireSize (columns.take i)

variable {columns : List WireColumn} {s : Schema}

theorem recordSize_eq_wireSize {row : List Column}
    (h : row.map Column.toWire = columns.map WireColumn.kept) :
    recordSize row = wireSize columns := by
  have hsizes := congrArg (List.map fun c : WireColumn => c.size.toNat) h
  rw [List.map_map, List.map_map] at hsizes
  have hrow : (fun c : WireColumn => c.size.toNat) ∘ Column.toWire = (·.type.size) :=
    funext fun c => c.type.toNat_ofNat_size
  rw [hrow] at hsizes
  exact congrArg List.sum hsizes

/-- A column that a builder takes from a list takes room in a record. -/
theorem Builder.size_pos_of_addWire {b grown : Builder} (h : b.addWire columns = .ok grown)
    {c : WireColumn} (hc : c ∈ columns) : 0 < c.size.toNat := by
  induction columns generalizing b with
  | nil => cases hc
  | cons first rest ih =>
    obtain ⟨type, next, htype, hadded, hrest⟩ := addWire_cons_eq_ok_iff.mp h
    rcases List.mem_cons.mp hc with rfl | hc
    · rw [← (WireColumn.of_type htype).2]
      exact DataType.size_pos hadded.type_ne_none
    · exact ih hrest hc

theorem Builder.kept_of_addWire_stamp {b grown : Builder} {c : WireColumn}
    (h : b.addWire (c :: columns) = .ok grown) (hstamp : c.IsStamp) :
    c.kept = Column.timestamp.toWire := by
  obtain ⟨type, next, htype, hadded, -⟩ := addWire_cons_eq_ok_iff.mp h
  cases hadded with
  | timestamp _ hsame =>
    obtain rfl : type = .timestamp := hsame
    exact (WireColumn.toWire_eq_kept htype hstamp.symm).symm
  | column hother => exact absurd hstamp hother

namespace Schema

theorem exists_addWire (h : ofWire columns = .ok s) :
    ∃ b, Builder.start.addWire columns = .ok b := by
  unfold ofWire at h
  split at h
  · cases h
  · next b hb => exact ⟨b, hb⟩

/-- A list in which only the first column names the timestamp comes back as it is, but for the
spelling of its names. -/
theorem toWire_eq_map_kept {stamp : WireColumn} {rest : List WireColumn}
    (h : ofWire (stamp :: rest) = .ok s) (hstamp : stamp.IsStamp)
    (hrest : ∀ c ∈ rest, ¬ c.IsStamp) :
    s.toWire = (stamp :: rest).map WireColumn.kept := by
  obtain ⟨b, hb⟩ := exists_addWire h
  have hall : rest.filter (fun c => ¬ c.IsStamp) = rest := by
    rw [List.filter_eq_self]
    intro c hc
    exact decide_eq_true (hrest c hc)
  rw [(toWire_of_ofWire h).2, List.filter_cons_of_neg (by simpa using hstamp), hall, List.map_cons,
    Builder.kept_of_addWire_stamp hb hstamp]

theorem laysOut_of_toWire (hbuilt : Built s.columns) (h : s.toWire = columns.map WireColumn.kept) :
    s.LaysOut columns where
  size := recordSize_eq_wireSize h
  found := by
    intro i c hc
    have hplace : s.toWire[i]? = some c.kept := by rw [h, List.getElem?_map, hc, Option.map_some]
    rw [toWire, List.getElem?_map, Option.map_eq_some_iff] at hplace
    obtain ⟨d, hd, hkept⟩ := hplace
    have hname : d.name = keptName c.name := congrArg WireColumn.name hkept
    refine ⟨d, hbuilt.column?_eq_some_iff.mpr ⟨List.mem_of_getElem? hd, hname⟩, ?_⟩
    have hoffset := (s.placed.getElem? hd).2
    rw [Nat.zero_add] at hoffset
    have hfront : (s.columns.take i).map Column.toWire = (columns.take i).map WireColumn.kept := by
      rw [List.map_take, List.map_take]
      exact congrArg (List.take i) h
    exact hoffset.trans (recordSize_eq_wireSize hfront)

/-- In a schema that has the layout of a list, the timestamp begins the record, so it has to begin
the list. -/
theorem LaysOut.eq_zero_of_isStamp (hbuilt : Built s.columns)
    (hpos : ∀ c ∈ columns, 0 < c.size.toNat) (h : s.LaysOut columns) {i : Nat} {c : WireColumn}
    (hc : columns[i]? = some c) (hstamp : c.IsStamp) : i = 0 := by
  obtain ⟨d, hd, hoffset⟩ := h.found i c hc
  have hfirst : s.column? c.name = some .timestamp :=
    hbuilt.column?_eq_some_iff.mpr ⟨List.mem_of_mem_head? hbuilt.first, hstamp.symm⟩
  obtain rfl : d = .timestamp := Option.some.inj (hd.symm.trans hfirst)
  -- Any column in front of it would take room, and the timestamp would not be at the beginning.
  by_contra hlate
  have hsome : columns ≠ [] := List.ne_nil_of_mem (List.mem_of_getElem? hc)
  obtain ⟨first, rest, rfl⟩ := List.exists_cons_of_ne_nil hsome
  obtain ⟨j, rfl⟩ := Nat.exists_eq_succ_of_ne_zero hlate
  have hroom := hpos first List.mem_cons_self
  have hzero : wireSize ((first :: rest).take (j + 1)) = 0 := hoffset.symm
  rw [List.take_succ_cons, wireSize, List.map_cons, List.sum_cons] at hzero
  omega

/-- A schema that is read from a list with a timestamp has the layout of the list just if the
timestamp is the first column and no other column names it. Any other list is read as well, but as
a schema that is laid out otherwise. -/
theorem laysOut_iff (h : ofWire columns = .ok s) (hstamped : ∃ c ∈ columns, c.IsStamp) :
    s.LaysOut columns ↔
      ∃ stamp rest, columns = stamp :: rest ∧ stamp.IsStamp ∧ ∀ c ∈ rest, ¬ c.IsStamp := by
  have hbuilt := (toWire_of_ofWire h).1
  constructor
  · intro hlays
    obtain ⟨b, hb⟩ := exists_addWire h
    have hfront {i : Nat} {c : WireColumn} (hc : columns[i]? = some c) (hstamp : c.IsStamp) :
        i = 0 := hlays.eq_zero_of_isStamp hbuilt (fun _ => Builder.size_pos_of_addWire hb) hc hstamp
    obtain ⟨stamp, hmem, hstamp⟩ := hstamped
    obtain ⟨i, hi⟩ := List.mem_iff_getElem?.mp hmem
    obtain rfl := hfront hi hstamp
    cases columns with
    | nil => cases hmem
    | cons first rest =>
      obtain rfl : first = stamp := Option.some.inj hi
      refine ⟨first, rest, rfl, hstamp, ?_⟩
      intro c hc hagain
      obtain ⟨j, hj⟩ := List.mem_iff_getElem?.mp hc
      exact Nat.succ_ne_zero j (hfront hj hagain)
  · rintro ⟨stamp, rest, rfl, hstamp, hrest⟩
    exact laysOut_of_toWire hbuilt (toWire_eq_map_kept h hstamp hrest)

theorem laysOut_iff_of_first_stamp :
    let columns : List WireColumn := [⟨9, 8, "timestamp"⟩, ⟨6, 4, " v"⟩]
    ∃ s, ofWire columns = .ok s ∧ s.LaysOut columns := by
  intro columns
  let v : Column := ⟨1, 8, .integer .int, "V", none, by decide⟩
  let s : Schema := ⟨.timestamp, [v], rfl, rfl, rfl, rfl, rfl, rfl, trivial⟩
  have hread : ofWire columns = .ok s := ofWire_of_addWire (by decide)
  have hstamp : (⟨9, 8, "timestamp"⟩ : WireColumn).IsStamp := by decide
  have hlays := laysOut_iff hread ⟨_, List.mem_cons_self, hstamp⟩
  refine ⟨s, hread, hlays.mpr ⟨_, _, rfl, hstamp, ?_⟩⟩
  intro c hc
  rw [List.mem_singleton.mp hc]
  decide

/-- A list that ends with the timestamp is read as if it began with it. -/
theorem ofWire_of_late_stamp :
    let columns : List WireColumn := [⟨6, 4, "v"⟩, ⟨9, 8, "TIMESTAMP"⟩]
    ∃ s v, ofWire columns = .ok s ∧ s.column? "v" = some v ∧ v.offset = 8 ∧
      ¬ s.LaysOut columns := by
  intro columns
  let v : Column := ⟨1, 8, .integer .int, "V", none, by decide⟩
  let s : Schema := ⟨.timestamp, [v], rfl, rfl, rfl, rfl, rfl, rfl, trivial⟩
  have hread : ofWire columns = .ok s := ofWire_of_addWire (by decide)
  have hfound : s.column? "v" = some v := by decide
  refine ⟨s, v, hread, hfound, rfl, ?_⟩
  intro hlays
  obtain ⟨d, hd, hoffset⟩ := hlays.found 0 ⟨6, 4, "v"⟩ rfl
  obtain rfl : d = v := Option.some.inj (hd.symm.trans hfound)
  cases hoffset

end Schema

end RecordLog
