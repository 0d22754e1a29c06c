import RecordLog.Record

/-!
# Cutting a buffer into records

A buffer that holds a whole number of records is cut into them from the front. Buffers of whole
records may be put together, and what is cut from them are the records of the first, followed by
those of the second; so records that were put one behind the other are cut out again as they were.
-/

namespace RecordLog.Schema

theorem divides_append {s : Schema} {front rest : Bytes} (hfront : s.Divides front)
    (hrest : s.Divides rest) : s.Divides (front ++ rest) := by
  unfold Divides at *
  rw [List.length_append, Nat.add_mod, hfront, hrest, Nat.add_zero, Nat.zero_mod]

/-- A buffer of whole records that is not empty holds a record, and whole records behind it. -/
theorem divides_drop {s : Schema} {data : Bytes} (h : s.Divides data) (hne : data ≠ []) :
    s.recordSize ≤ data.length ∧ s.Divides (data.drop s.recordSize) := by
  unfold Divides at *
  have hpos : 0 < data.length := List.length_pos_iff.mpr hne
  have hle : s.recordSize ≤ data.length := Nat.le_of_dvd hpos (Nat.dvd_of_mod_eq_zero h)
  refine ⟨hle, ?_⟩
  rw [List.length_drop, ← Nat.mod_eq_sub_mod hle]
  exact h

theorem split_append {s : Schema} {front : Bytes} (hfront : front.length = s.recordSize)
    (rest : Bytes) : s.split (front ++ rest) = front :: s.split rest := by
  have hcount : (front ++ rest).length / s.recordSize = rest.length / s.recordSize + 1 := by
    rw [List.length_append, hfront, Nat.add_div_left _ s.recordSize_pos]
  rw [split, hcount, Bytes.pieces, split, ← hfront, List.take_left, List.drop_left]

theorem view_eq {s : Schema} {data : Bytes} (h : data.length = s.recordSize) (isView : Bool) :
    s.record data isView = .ok ⟨s, data, h, isView, none⟩ := by
  rw [record, dif_pos h]

theorem viewAll_nil (s : Schema) : s.viewAll [] = .ok [] := by
  have hdiv : s.Divides [] := Nat.zero_mod _
  rw [viewAll, if_pos hdiv]
  simp [split, Bytes.pieces]
  rfl

theorem viewAll_append {s : Schema} {front rest : Bytes} (hfront : front.length = s.recordSize)
    (hrest : s.Divides rest) {records : List Record} (h : s.viewAll rest = .ok records) :
    s.viewAll (front ++ rest) = .ok (⟨s, front, hfront, true, none⟩ :: records) := by
  have hdiv : s.Divides (front ++ rest) :=
    divides_append (by rw [Divides, hfront, Nat.mod_self]) hrest
  rw [viewAll, if_pos hrest] at h
  rw [viewAll, if_pos hdiv, split_append hfront, List.mapM_cons, view, view_eq hfront, h]
  rfl

/-- A buffer of whole records is read as records. -/
theorem exists_viewAll {s : Schema} {data : Bytes} (h : s.Divides data) :
    ∃ records, s.viewAll data = .ok records := by
  induction hlen : data.length using Nat.strongRecOn generalizing data with
  | ind n ih =>
    by_cases hnil : data = []
    · exact ⟨[], hnil ▸ s.viewAll_nil⟩
    · obtain ⟨hle, hdrop⟩ := divides_drop h hnil
      have hpos := s.recordSize_pos
      obtain ⟨records, hrecords⟩ := ih (data.drop s.recordSize).length
        (by rw [List.length_drop]; omega) hdrop rfl
      have hfront : (data.take s.recordSize).length = s.recordSize :=
        List.length_take_of_le hle
      have hall := viewAll_append hfront hdrop hrecords
      rw [List.take_append_drop] at hall
      exact ⟨_, hall⟩

/-- The records in a buffer that holds whole ones. -/
def views (s : Schema) (data : Bytes) : List Record := (s.viewAll data).toOption.getD []

theorem viewAll_eq_views {s : Schema} {data : Bytes} (h : s.Divides data) :
    s.viewAll data = .ok (s.views data) := by
  obtain ⟨records, hrecords⟩ := exists_viewAll h
  rw [views, hrecords]
  rfl

theorem views_append {s : Schema} {front rest : Bytes} (hfront : front.length = s.recordSize)
    (hrest : s.Divides rest) :
    s.views (front ++ rest) = ⟨s, front, hfront, true, none⟩ :: s.views rest := by
  rw [views, viewAll_append hfront hrest (viewAll_eq_views hrest)]
  rfl

/-- Records put one behind the other are cut out again. -/
theorem viewAll_flatten {s : Schema} {records : List Bytes}
    (h : ∀ record ∈ records, record.length = s.recordSize) :
    s.Divides records.flatten ∧
      ∃ views, s.viewAll records.flatten = .ok views ∧ views.map Record.data = records := by
  induction records with
  | nil => exact ⟨Nat.zero_mod _, [], s.viewAll_nil, rfl⟩
  | cons record rest ih =>
    have hrecord := h record List.mem_cons_self
    obtain ⟨hdiv, views, hviews, hdata⟩ := ih fun r hr => h r (List.mem_cons_of_mem record hr)
    refine ⟨?_, _, viewAll_append hrecord hdiv hviews, ?_⟩
    · exact divides_append (by rw [Divides, hrecord, Nat.mod_self]) hdiv
    · rw [List.map_cons, hdata]

/-! ## Pieces -/

variable {s : Schema}

theorem split_flatten {records : List Bytes}
    (h : ∀ record ∈ records, record.length = s.recordSize) :
    s.split records.flatten = records := by
  induction records with
  | nil => simp [split, Bytes.pieces]
  | cons record rest ih =>
    have hrest := ih fun r hr => h r (List.mem_cons_of_mem record hr)
    rw [List.flatten_cons, split_append (h record List.mem_cons_self), hrest]

theorem flatten_split {data : Bytes} (h : s.Divides data) : (s.split data).flatten = data := by
  have hwhole : data.length / s.recordSize * s.recordSize = data.length :=
    Nat.div_mul_cancel (Nat.dvd_of_mod_eq_zero h)
  rw [split, Bytes.flatten_pieces, hwhole, List.take_length]

theorem length_of_mem_split {data record : Bytes} (h : record ∈ s.split data) :
    record.length = s.recordSize := by
  unfold split at h
  have hroom : data.length / s.recordSize * s.recordSize ≤ data.length := Nat.div_mul_le_self _ _
  generalize data.length / s.recordSize = n at h hroom
  induction n generalizing data with
  | zero => cases h
  | succ n ih =>
    rw [Nat.succ_mul] at hroom
    rcases List.mem_cons.mp h with rfl | hrest
    · exact List.length_take_of_le (by omega)
    · exact ih hrest (by rw [List.length_drop]; omega)

/-- In records that are put one behind the other, every record begins where those in front of it
end. -/
theorem drop_flatten {records : List Bytes}
    (h : ∀ record ∈ records, record.length = s.recordSize) (n : Nat) :
    records.flatten.drop (n * s.recordSize) = (records.drop n).flatten := by
  induction n generalizing records with
  | zero => rw [Nat.zero_mul, List.drop_zero, List.drop_zero]
  | succ n ih =>
    cases records with
    | nil => simp
    | cons record rest =>
      have hrest := ih fun r hr => h r (List.mem_cons_of_mem record hr)
      rw [List.flatten_cons, List.drop_succ_cons, Nat.succ_mul, Nat.add_comm, ← List.drop_drop,
        ← h record List.mem_cons_self, List.drop_left, h record List.mem_cons_self, hrest]

theorem take_flatten {records : List Bytes}
    (h : ∀ record ∈ records, record.length = s.recordSize) (n : Nat) :
    records.flatten.take (n * s.recordSize) = (records.take n).flatten := by
  induction n generalizing records with
  | zero => rw [Nat.zero_mul, List.take_zero, List.take_zero, List.flatten_nil]
  | succ n ih =>
    cases records with
    | nil => simp
    | cons record rest =>
      have hrest := ih fun r hr => h r (List.mem_cons_of_mem record hr)
      rw [List.flatten_cons, List.take_succ_cons, List.flatten_cons, Nat.succ_mul, Nat.add_comm,
        List.take_add, ← h record List.mem_cons_self, List.take_left, List.drop_left,
        h record List.mem_cons_self, hrest]

/-- A piece of a buffer of whole records stands behind as many of them as it has in front of it. -/
theorem eq_of_split_getElem? {data piece : Bytes} (h : s.Divides data) {i : Nat}
    (hi : (s.split data)[i]? = some piece) :
    piece = (data.drop (i * s.recordSize)).take s.recordSize := by
  have hsizes : ∀ record ∈ s.split data, record.length = s.recordSize :=
    fun _ => length_of_mem_split
  obtain ⟨hlt, rfl⟩ := List.getElem?_eq_some_iff.mp hi
  have hbehind : data.drop (i * s.recordSize) =
      (s.split data)[i] ++ ((s.split data).drop (i + 1)).flatten := by
    rw [← List.flatten_cons, ← List.drop_eq_getElem_cons hlt, ← drop_flatten hsizes,
      flatten_split h]
  rw [hbehind, ← length_of_mem_split (List.getElem_mem hlt), List.take_left]

end RecordLog.Schema
