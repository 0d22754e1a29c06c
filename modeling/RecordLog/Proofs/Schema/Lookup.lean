import Mathlib.Data.List.Nodup
import RecordLog.Proofs.Schema.Fields
import RecordLog.Proofs.Text.Names

/-!
# Columns and fields by index and by name

The columns of a schema are numbered, so each is the only one with its index. A name may be that of
several columns, and then it finds the first of them, under every spelling that is kept as the name.
All columns are the first ones of their names just if no two columns share one.
-/

namespace RecordLog

namespace Placed

variable {columns : List Column} {c d : Column} {index offset : Nat} {p : Column → Bool}

/-- The place of a column is told by the columns in front of it. -/
theorem getElem? (h : Placed index offset columns) {i : Nat} (hc : columns[i]? = some c) :
    c.index = index + i ∧ c.offset = offset + recordSize (columns.take i) := by
  induction columns generalizing index offset i with
  | nil => cases hc
  | cons first rest ih =>
    obtain ⟨hfirst, hbegin, hrest⟩ := h
    cases i with
    | zero =>
      obtain rfl : first = c := Option.some.inj hc
      exact ⟨hfirst, hbegin⟩
    | succ i =>
      obtain ⟨hindex, hoffset⟩ := ih hrest hc
      rw [List.take_succ_cons, recordSize_cons]
      omega

theorem index_le (h : Placed index offset columns) (hc : c ∈ columns) : index ≤ c.index := by
  obtain ⟨i, hi⟩ := List.mem_iff_getElem?.mp hc
  have hindex := (h.getElem? hi).1
  omega

theorem getElem?_index (h : Placed 0 offset columns) (hc : c ∈ columns) :
    columns[c.index]? = some c := by
  obtain ⟨i, hi⟩ := List.mem_iff_getElem?.mp hc
  have hindex := (h.getElem? hi).1
  rw [Nat.zero_add] at hindex
  rwa [hindex]

/-- A column is told by its index. -/
theorem eq_of_index_eq (h : Placed 0 offset columns) (hc : c ∈ columns) (hd : d ∈ columns)
    (hindex : c.index = d.index) : c = d := by
  have hfound := h.getElem?_index hc
  rw [hindex, h.getElem?_index hd] at hfound
  exact (Option.some.inj hfound).symm

theorem nodup (h : Placed index offset columns) : columns.Nodup := by
  induction columns generalizing index offset with
  | nil => exact List.nodup_nil
  | cons first rest ih =>
    obtain ⟨hfirst, -, hrest⟩ := h
    refine List.nodup_cons.mpr ⟨?_, ih hrest⟩
    intro hmem
    have hlate := hrest.index_le hmem
    omega

/-- The first column of a kind is the one with the least index. -/
theorem find?_eq_some_iff (h : Placed index offset columns) :
    columns.find? p = some d ↔
      d ∈ columns ∧ p d = true ∧ ∀ c ∈ columns, p c = true → d.index ≤ c.index := by
  induction columns generalizing index offset with
  | nil => simp
  | cons first rest ih =>
    obtain ⟨hfirst, -, hrest⟩ := h
    have hlate {c : Column} (hc : c ∈ rest) : first.index < c.index := by
      have hindex := hrest.index_le hc
      omega
    -- What is in front of the others has the least index, so only whether it is found matters.
    by_cases hp : p first = true
    · rw [List.find?_cons_of_pos hp, Option.some.injEq]
      constructor
      · rintro rfl
        refine ⟨List.mem_cons_self, hp, ?_⟩
        intro c hc _
        rcases List.mem_cons.mp hc with rfl | hc
        · exact Nat.le_refl _
        · exact Nat.le_of_lt (hlate hc)
      · rintro ⟨hd, -, hleast⟩
        have hindex := hleast first List.mem_cons_self hp
        rcases List.mem_cons.mp hd with rfl | hd
        · rfl
        · exact absurd (hlate hd) (Nat.not_lt_of_le hindex)
    · rw [List.find?_cons_of_neg hp, ih hrest]
      simp only [List.mem_cons, forall_eq_or_imp, hp, Bool.false_eq_true, false_imp_iff, true_and]
      constructor
      · rintro ⟨hd, hpd, hleast⟩
        exact ⟨.inr hd, hpd, hleast⟩
      · rintro ⟨rfl | hd, hpd, hleast⟩
        · exact absurd hpd hp
        · exact ⟨hd, hpd, hleast⟩

end Placed

namespace Schema

variable {s : Schema} {c d : Column}

/-- Whether a column is the first one of its name. -/
def IsFirst (s : Schema) (d : Column) : Prop :=
  d ∈ s.columns ∧ ∀ c ∈ s.columns, c.name = d.name → d.index ≤ c.index

theorem IsFirst.eq (hc : s.IsFirst c) (hd : s.IsFirst d) (hname : c.name = d.name) : c = d :=
  s.placed_columns.eq_of_index_eq hc.1 hd.1
    (Nat.le_antisymm (hc.2 d hd.1 hname.symm) (hd.2 c hc.1 hname))

theorem exists_isFirst (hc : c ∈ s.columns) : ∃ d, s.IsFirst d ∧ d.name = c.name := by
  cases hfound : s.columns.find? fun d => decide (d.name = c.name) with
  | none =>
    have hmiss := List.find?_eq_none.mp hfound c hc
    exact absurd (decide_eq_true rfl) hmiss
  | some d =>
    obtain ⟨hd, hname, hleast⟩ := s.placed_columns.find?_eq_some_iff.mp hfound
    have hname := of_decide_eq_true hname
    refine ⟨d, ⟨hd, ?_⟩, hname⟩
    intro e he hsame
    exact hleast e he (decide_eq_true (hsame.trans hname))

theorem nodup_names_iff :
    (s.columns.map Column.name).Nodup ↔
      ∀ c ∈ s.columns, ∀ d ∈ s.columns, c.name = d.name → c = d :=
  List.nodup_map_iff_inj_on s.placed_columns.nodup

theorem forall_isFirst_iff :
    (∀ c ∈ s.columns, s.IsFirst c) ↔ (s.columns.map Column.name).Nodup := by
  rw [nodup_names_iff]
  constructor
  · intro hall c hc d hd hname
    exact (hall c hc).eq (hall d hd) hname
  · intro hdistinct c hc
    refine ⟨hc, ?_⟩
    intro d hd hname
    rw [hdistinct d hd c hc hname]

/-- Among columns whose names are kept, a name finds the first one that it is kept as. -/
theorem column?_eq_some_iff (hkept : ∀ c ∈ s.columns, keptName c.name = c.name) {name : String} :
    s.column? name = some d ↔ s.IsFirst d ∧ d.name = keptName name := by
  have hfinds {c : Column} (hc : c ∈ s.columns) :
      Text.upper c.name = Text.upper (Text.trim name) ↔ c.name = keptName name := by
    rw [upper_of_keptName (hkept c hc), keptName]
  rw [column?, s.placed_columns.find?_eq_some_iff]
  simp only [decide_eq_true_eq]
  constructor
  · rintro ⟨hd, hname, hleast⟩
    have hname := (hfinds hd).mp hname
    refine ⟨⟨hd, ?_⟩, hname⟩
    intro c hc hsame
    exact hleast c hc ((hfinds hc).mpr (hsame.trans hname))
  · rintro ⟨⟨hd, hleast⟩, hname⟩
    refine ⟨hd, (hfinds hd).mpr hname, ?_⟩
    intro c hc hsame
    exact hleast c hc (((hfinds hc).mp hsame).trans hname.symm)

end Schema

namespace Record

variable {r : Record} {c d : Column}

theorem at?_index (hc : c ∈ r.schema.columns) : r.at? c.index = some (r.field c) := by
  rw [at?, r.schema.placed_columns.getElem?_index hc]
  rfl

/-- The field that a name finds is that of a column just if the name finds the column. -/
theorem get?_eq_at?_iff (hc : c ∈ r.schema.columns) (hd : d ∈ r.schema.columns) {name : String}
    (hfound : r.schema.column? name = some d) : r.get? name = r.at? c.index ↔ c = d := by
  rw [get?, hfound, Option.map_some, at?_index hc, Option.some.injEq]
  constructor
  · intro hfield
    exact r.schema.placed_columns.eq_of_index_eq hc hd (congrArg Field.index hfield).symm
  · rintro rfl
    rfl

end Record

end RecordLog
