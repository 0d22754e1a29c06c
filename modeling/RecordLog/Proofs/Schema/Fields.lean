import RecordLog.Record

/-!
# Fields tile a record

The columns of a schema lie apart from each other and leave no gap, so the fields of a record put
one behind the other are the record, and whatever is done to every byte by its position may as
well be done field by field.
-/

namespace RecordLog

namespace Placed

variable {columns : List Column} {c d : Column} {index offset : Nat}

theorem recordSize_cons (c : Column) (columns : List Column) :
    recordSize (c :: columns) = c.type.size + recordSize columns := by
  rw [recordSize, recordSize, List.map_cons, List.sum_cons]

theorem within (h : Placed index offset columns) (hc : c ∈ columns) :
    offset ≤ c.offset ∧ c.finish ≤ offset + recordSize columns := by
  induction columns generalizing index offset with
  | nil => cases hc
  | cons first rest ih =>
    obtain ⟨-, hoffset, hrest⟩ := h
    rw [recordSize_cons]
    rcases List.mem_cons.mp hc with rfl | hc
    · unfold Column.finish
      omega
    · obtain ⟨hlow, hhigh⟩ := ih hrest hc
      omega

/-- Different columns have no byte in common. -/
theorem apart (h : Placed index offset columns) (hc : c ∈ columns) (hd : d ∈ columns) :
    c = d ∨ c.finish ≤ d.offset ∨ d.finish ≤ c.offset := by
  induction columns generalizing index offset with
  | nil => cases hc
  | cons first rest ih =>
    obtain ⟨-, hoffset, hrest⟩ := h
    have hfinish : offset + first.type.size = first.finish := by rw [Column.finish, hoffset]
    rw [hfinish] at hrest
    rcases List.mem_cons.mp hc with rfl | hc₁ <;> rcases List.mem_cons.mp hd with rfl | hd₁
    · exact .inl rfl
    · exact .inr (.inl (hrest.within hd₁).1)
    · exact .inr (.inr (hrest.within hc₁).1)
    · exact ih hrest hc₁ hd₁

/-- What is done to the bytes behind an offset, each by its position, is done field by field. -/
theorem flatMap_mapIdx (g : Nat → UInt8 → UInt8) (h : Placed index offset columns) {data : Bytes}
    (hsize : data.length = offset + recordSize columns) :
    columns.flatMap (fun c => (c.slice data).mapIdx fun i => g (c.offset + i)) =
      (data.drop offset).mapIdx fun i => g (offset + i) := by
  induction columns generalizing index offset with
  | nil =>
    have hempty : data.drop offset = [] := List.drop_eq_nil_of_le (Nat.le_of_eq hsize)
    rw [hempty]
    rfl
  | cons c rest ih =>
    obtain ⟨-, hoffset, hrest⟩ := h
    rw [recordSize_cons] at hsize
    have hlength : ((data.drop offset).take c.type.size).length = c.type.size := by
      rw [List.length_take, List.length_drop]
      omega
    have hbehind := ih hrest (by omega)
    have hparts : (data.drop offset).mapIdx (fun i => g (offset + i)) =
        ((data.drop offset).take c.type.size).mapIdx (fun i => g (offset + i)) ++
          (data.drop (offset + c.type.size)).mapIdx fun i => g (offset + c.type.size + i) := by
      rw [← List.drop_drop]
      generalize data.drop offset = ahead at *
      rw [← List.take_append_drop c.type.size ahead, List.mapIdx_append, List.take_append_drop,
        hlength]
      simp only [Nat.add_assoc, Nat.add_comm c.type.size]
    rw [List.flatMap_cons, hbehind, Column.slice, hoffset, hparts]

end Placed

namespace Schema

variable {s : Schema} {c : Column} {data : Bytes}

theorem placed_columns (s : Schema) : Placed 0 0 s.columns := s.placed

theorem finish_le (hc : c ∈ s.columns) : c.finish ≤ s.recordSize := by
  have hwithin := (s.placed.within hc).2
  rwa [Nat.zero_add] at hwithin

theorem length_slice (hc : c ∈ s.columns) (h : data.length = s.recordSize) :
    (c.slice data).length = c.type.size := by
  have hfinish := finish_le hc
  rw [Column.slice, List.length_take, List.length_drop]
  unfold Column.finish at hfinish
  omega

/-- What is done to the bytes of a record, each by its position, is done field by field. -/
theorem flatMap_mapIdx (g : Nat → UInt8 → UInt8) (h : data.length = s.recordSize) :
    s.columns.flatMap (fun c => (c.slice data).mapIdx fun i => g (c.offset + i)) =
      data.mapIdx g := by
  have hsize : data.length = 0 + RecordLog.recordSize s.columns := by
    rw [h, Nat.zero_add, recordSize]
  have hall := s.placed_columns.flatMap_mapIdx g hsize
  simp only [List.drop_zero, Nat.zero_add] at hall
  exact hall

theorem flatMap_slice (h : data.length = s.recordSize) :
    s.columns.flatMap (fun c => c.slice data) = data := by
  have hid (bytes : Bytes) : (bytes.mapIdx fun _ b => b) = bytes := by
    apply List.ext_getElem <;> simp
  simpa only [hid] using flatMap_mapIdx (fun _ b => b) h

end Schema

end RecordLog
