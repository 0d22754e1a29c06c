import Mathlib.Algebra.BigOperators.Group.List.Lemmas
import RecordLog.Batch.Builder

/-!
# Blocks group records by time

Blocks group a list of records if every stretch of time that occurs has one block, and this holds
the records of the stretch in the order in which they arrived. Putting a record into its block
keeps this for the list with the record at its end. In which order the blocks stand does not
matter.
-/

namespace RecordLog

attribute [local instance (high)] Zero.ofOfNat0

def keyOf (record : Bytes) : UInt64 := blockOf (timestampOf record)

def recordsOf (key : UInt64) (records : List Bytes) : List Bytes :=
  records.filter fun record => keyOf record = key

@[simp] theorem mem_recordsOf {key : UInt64} {records : List Bytes} {record : Bytes} :
    record ∈ recordsOf key records ↔ record ∈ records ∧ keyOf record = key := by
  simp [recordsOf]

theorem recordsOf_append_self (records : List Bytes) (record : Bytes) :
    recordsOf (keyOf record) (records ++ [record]) =
      recordsOf (keyOf record) records ++ [record] := by
  simp [recordsOf]

theorem recordsOf_append_of_ne {key : UInt64} {record : Bytes} (h : key ≠ keyOf record)
    (records : List Bytes) : recordsOf key (records ++ [record]) = recordsOf key records := by
  simp [recordsOf, h.symm]

theorem length_recordsOf (key : UInt64) (records : List Bytes) :
    (recordsOf key records).length = (records.map keyOf).count key := by
  rw [recordsOf, List.count, List.countP_map, List.countP_eq_length_filter]
  rfl

/-- Blocks that group a list of records by their stretches of time. -/
structure Groups (blocks : List Block) (records : List Bytes) : Prop where
  nodup : (blocks.map Block.key).Nodup
  mem_keys : ∀ key, key ∈ blocks.map Block.key ↔ ∃ record ∈ records, keyOf record = key
  data : ∀ block ∈ blocks, block.data = (recordsOf block.key records).flatten
  count : ∀ block ∈ blocks, block.count = UInt64.ofNat (recordsOf block.key records).length

namespace BatchBuilder

theorem map_key_insert (key : UInt64) (record : Bytes) (blocks : List Block) :
    (insert key record blocks).map Block.key =
      if key ∈ blocks.map Block.key then blocks.map Block.key
      else blocks.map Block.key ++ [key] := by
  induction blocks with
  | nil => rfl
  | cons b rest ih =>
    rw [insert]
    by_cases hkey : b.key = key
    · simp [hkey]
    · have hne : key ≠ b.key := fun h => hkey h.symm
      rw [if_neg hkey, List.map_cons, ih, List.map_cons]
      simp only [List.mem_cons, hne, false_or]
      split <;> rfl

/-- What an insertion does to each block: one that is not the record's stays, and the record's
begins with the record or goes on with it. -/
theorem mem_insert {key : UInt64} {record : Bytes} {blocks : List Block} {block : Block}
    (hnodup : (blocks.map Block.key).Nodup) (h : block ∈ insert key record blocks) :
    (block ∈ blocks ∧ block.key ≠ key) ∨
      (block = ⟨key, record, 1⟩ ∧ key ∉ blocks.map Block.key) ∨
      ∃ old ∈ blocks, old.key = key ∧ block = ⟨key, old.data ++ record, old.count + 1⟩ := by
  induction blocks with
  | nil => exact .inr (.inl ⟨List.mem_singleton.mp h, List.not_mem_nil⟩)
  | cons b rest ih =>
    obtain ⟨hnew, hrest⟩ := List.nodup_cons.mp hnodup
    rw [insert] at h
    split at h
    · next hkey =>
      rcases List.mem_cons.mp h with rfl | hmem
      · exact .inr (.inr ⟨b, List.mem_cons_self, hkey, by rw [hkey]⟩)
      · -- Behind the block of the record there is no other one with its key.
        refine .inl ⟨List.mem_cons_of_mem b hmem, ?_⟩
        rintro rfl
        exact hnew (hkey ▸ List.mem_map_of_mem hmem)
    · next hkey =>
      rcases List.mem_cons.mp h with rfl | hmem
      · exact .inl ⟨List.mem_cons_self, hkey⟩
      · rcases ih hrest hmem with ⟨hold, hne⟩ | ⟨hblock, hfresh⟩ | ⟨old, hold, hrecord⟩
        · exact .inl ⟨List.mem_cons_of_mem b hold, hne⟩
        · refine .inr (.inl ⟨hblock, ?_⟩)
          rw [List.map_cons, List.mem_cons, not_or]
          exact ⟨fun heq => hkey heq.symm, hfresh⟩
        · exact .inr (.inr ⟨old, List.mem_cons_of_mem b hold, hrecord⟩)

end BatchBuilder

namespace Groups

variable {blocks : List Block} {records : List Bytes} {block : Block}

theorem nil : Groups [] [] where
  nodup := List.nodup_nil
  mem_keys := by simp
  data := by simp
  count := by simp

theorem perm {others : List Block} (hperm : others.Perm blocks) (h : Groups blocks records) :
    Groups others records where
  nodup := (hperm.map Block.key).nodup_iff.mpr h.nodup
  mem_keys := fun key => (hperm.map Block.key).mem_iff.trans (h.mem_keys key)
  data := fun block hblock => h.data block (hperm.mem_iff.mp hblock)
  count := fun block hblock => h.count block (hperm.mem_iff.mp hblock)

theorem recordsOf_eq_nil {key : UInt64} (h : Groups blocks records)
    (hkey : key ∉ blocks.map Block.key) : recordsOf key records = [] := by
  apply List.eq_nil_iff_forall_not_mem.mpr
  intro record hrecord
  exact hkey ((h.mem_keys key).mpr ⟨record, mem_recordsOf.mp hrecord⟩)

theorem exists_record (h : Groups blocks records) (hblock : block ∈ blocks) :
    ∃ record ∈ records, keyOf record = block.key :=
  (h.mem_keys block.key).mp (List.mem_map_of_mem hblock)

theorem recordsOf_length_pos (h : Groups blocks records) (hblock : block ∈ blocks) :
    0 < (recordsOf block.key records).length := by
  obtain ⟨record, hrecord⟩ := h.exists_record hblock
  exact List.length_pos_of_mem (mem_recordsOf.mpr hrecord)

theorem count_toNat (h : Groups blocks records) (hsize : records.length < UInt64.size)
    (hblock : block ∈ blocks) : block.count.toNat = (recordsOf block.key records).length := by
  have hle : (recordsOf block.key records).length ≤ records.length := List.length_filter_le _ _
  rw [h.count block hblock]
  exact UInt64.toNat_ofNat_of_lt' (Nat.lt_of_le_of_lt hle hsize)

/-- Every record is in just one block. -/
theorem sum_length (h : Groups blocks records) :
    (blocks.map fun block => (recordsOf block.key records).length).sum = records.length := by
  -- The keys of the blocks are those that occur, so the sum counts every key once.
  have hkeys : (blocks.map Block.key).Perm (records.map keyOf).dedup := by
    apply (List.perm_ext_iff_of_nodup h.nodup (List.nodup_dedup _)).mpr
    intro key
    rw [h.mem_keys, List.mem_dedup, List.mem_map]
  calc (blocks.map fun block => (recordsOf block.key records).length).sum
      = ((blocks.map Block.key).map fun key => (records.map keyOf).count key).sum := by
        rw [List.map_map]
        simp only [length_recordsOf]
        rfl
    _ = ((records.map keyOf).dedup.map fun key => (records.map keyOf).count key).sum :=
        (hkeys.map _).sum_eq
    _ = records.length := by
        rw [List.sum_map_count_dedup_eq_length, List.length_map]

/-- A record put into its block joins the records that the blocks group, as the last one. -/
theorem insert (h : Groups blocks records) (record : Bytes) :
    Groups (BatchBuilder.insert (keyOf record) record blocks) (records ++ [record]) where
  nodup := by
    rw [BatchBuilder.map_key_insert]
    split
    · exact h.nodup
    · next hfresh =>
      apply h.nodup.append (List.nodup_singleton _)
      simpa using hfresh
  mem_keys := by
    intro key
    have hmem : key ∈ (BatchBuilder.insert (keyOf record) record blocks).map Block.key ↔
        key ∈ blocks.map Block.key ∨ key = keyOf record := by
      rw [BatchBuilder.map_key_insert]
      split
      · next hold =>
        constructor
        · exact .inl
        · rintro (hkey | rfl)
          · exact hkey
          · exact hold
      · rw [List.mem_append, List.mem_singleton]
    rw [hmem, h.mem_keys]
    constructor
    · rintro (⟨old, hold, hkey⟩ | rfl)
      · exact ⟨old, List.mem_append_left _ hold, hkey⟩
      · exact ⟨record, List.mem_append_right _ (List.mem_singleton_self record), rfl⟩
    · rintro ⟨old, hold, hkey⟩
      rcases List.mem_append.mp hold with hold | hnew
      · exact .inl ⟨old, hold, hkey⟩
      · rw [List.mem_singleton.mp hnew] at hkey
        exact .inr hkey.symm
  data := by
    intro block hblock
    rcases BatchBuilder.mem_insert h.nodup hblock with
      ⟨hold, hne⟩ | ⟨rfl, hfresh⟩ | ⟨old, hold, hkey, rfl⟩
    · rw [recordsOf_append_of_ne hne, h.data block hold]
    · rw [recordsOf_append_self, h.recordsOf_eq_nil hfresh]
      simp
    · rw [recordsOf_append_self, List.flatten_append, ← hkey, ← h.data old hold]
      simp
  count := by
    intro block hblock
    rcases BatchBuilder.mem_insert h.nodup hblock with
      ⟨hold, hne⟩ | ⟨rfl, hfresh⟩ | ⟨old, hold, hkey, rfl⟩
    · rw [recordsOf_append_of_ne hne, h.count block hold]
    · rw [recordsOf_append_self, h.recordsOf_eq_nil hfresh]
      rfl
    · have hcount := h.count old hold
      rw [hkey] at hcount
      rw [recordsOf_append_self, List.length_append, hcount, UInt64.ofNat_add]
      rfl

end Groups

end RecordLog
