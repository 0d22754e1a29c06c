import RecordLog.Proofs.Batch.Grouping
import RecordLog.Proofs.Schema.Cutting

/-!
# Which batches are valid

The check adds up words and refuses what does not fit into one. Said in natural numbers, a batch
is valid just if every block has the bytes that its count asks for, of which a word can hold the
number, and the counts of the blocks add up to that of the batch. A batch that groups records is
valid for their size, and for no other unless it is empty.
-/

namespace RecordLog

attribute [local instance (high)] Zero.ofOfNat0

/-- Whether a block has the bytes that its count asks for. -/
def Block.Filled (block : Block) (recordSize : Nat) : Prop :=
  block.data.length = block.count.toNat * recordSize ∧ block.data.length < Batch.wordLimit

namespace Batch

theorem total_eq_ok_iff {recordSize : Nat} {held sum : UInt64} {blocks : List Block} :
    total recordSize held blocks = .ok sum ↔
      (∀ block ∈ blocks, block.Filled recordSize) ∧
        held.toNat + (blocks.map (·.count.toNat)).sum = sum.toNat := by
  induction blocks generalizing held with
  | nil =>
    rw [total]
    constructor
    · intro h
      obtain rfl : held = sum := Except.ok.inj h
      exact ⟨fun _ hblock => absurd hblock List.not_mem_nil, rfl⟩
    · rintro ⟨-, hsum⟩
      rw [UInt64.toNat_inj.mp hsum]
  | cons block rest ih =>
    have hlimit : sum.toNat < wordLimit := sum.toNat_lt
    rw [List.map_cons, List.sum_cons, List.forall_mem_cons, Block.Filled]
    simp only [total]
    split
    · next hover =>
      constructor
      · intro h
        cases h
      · rintro ⟨⟨⟨hlength, hword⟩, -⟩, -⟩
        omega
    · next hfits =>
      split
      · next hlength =>
        constructor
        · intro h
          cases h
        · rintro ⟨⟨hfilled, -⟩, -⟩
          exact absurd hfilled.1 hlength
      · next hlength =>
        split
        · next hover =>
          constructor
          · intro h
            cases h
          · rintro ⟨-, hsum⟩
            omega
        · next hheld =>
          -- The total that is handed on has not wrapped around.
          have hadd : (held + block.count).toNat = held.toNat + block.count.toNat := by
            rw [UInt64.toNat_add]
            apply Nat.mod_eq_of_lt
            exact Nat.lt_of_not_le hheld
          have hfilled : block.data.length = block.count.toNat * recordSize ∧
              block.data.length < wordLimit := by omega
          rw [ih, hadd, Nat.add_assoc]
          constructor
          · rintro ⟨hrest, hsum⟩
            exact ⟨⟨hfilled, hrest⟩, hsum⟩
          · rintro ⟨⟨-, hrest⟩, hsum⟩
            exact ⟨hrest, hsum⟩

/-- A batch is valid if its blocks are filled and have its count together. -/
theorem validate_eq_ok_iff {b : Batch} {recordSize : Nat} :
    b.validate recordSize = .ok () ↔
      (∀ block ∈ b.blocks, block.Filled recordSize) ∧
        (b.blocks.map (·.count.toNat)).sum = b.count.toNat := by
  have htotal := @total_eq_ok_iff recordSize 0 b.count b.blocks
  rw [UInt64.toNat_zero, Nat.zero_add] at htotal
  rw [validate, ← htotal]
  split
  · next cause hcause =>
    rw [hcause]
    constructor <;> intro h <;> cases h
  · next held hheld =>
    rw [hheld]
    split
    · next heq => simp [heq]
    · next hne =>
      constructor
      · intro h
        cases h
      · intro h
        exact absurd (Except.ok.inj h) hne

end Batch

namespace Groups

variable {blocks : List Block} {records : List Bytes} {block : Block} {size : Nat}

theorem length_flatten {records : List Bytes} (h : ∀ record ∈ records, record.length = size) :
    records.flatten.length = records.length * size := by
  rw [List.length_flatten, List.map_congr_left h, List.map_const', List.sum_replicate_nat]

theorem length_data (h : Groups blocks records) (hsize : ∀ record ∈ records, record.length = size)
    (hblock : block ∈ blocks) :
    block.data.length = (recordsOf block.key records).length * size := by
  rw [h.data block hblock]
  apply length_flatten
  intro record hrecord
  exact hsize record (mem_recordsOf.mp hrecord).1

/-- Blocks that group records pass for records of their size, and of no other size. -/
theorem validate_eq_ok_iff (h : Groups blocks records)
    (hcount : records.length < UInt64.size)
    (hsize : ∀ record ∈ records, record.length = size) (recordSize : Nat) :
    Batch.validate ⟨UInt64.ofNat records.length, blocks⟩ recordSize = .ok () ↔
      records = [] ∨
        recordSize = size ∧ ∀ block ∈ blocks, block.data.length < Batch.wordLimit := by
  have hcounts : (blocks.map (·.count.toNat)).sum = (UInt64.ofNat records.length).toNat := by
    rw [UInt64.toNat_ofNat_of_lt' hcount, ← h.sum_length]
    exact congrArg List.sum (List.map_congr_left fun block => h.count_toNat hcount)
  rw [Batch.validate_eq_ok_iff]
  simp only [hcounts, and_true]
  constructor
  · intro hfilled
    by_cases hempty : records = []
    · exact .inl hempty
    · obtain ⟨record, hrecord⟩ := List.exists_mem_of_ne_nil _ hempty
      have hkey := (h.mem_keys (keyOf record)).mpr ⟨record, hrecord, rfl⟩
      obtain ⟨block, hblock, -⟩ := List.mem_map.mp hkey
      -- One block that is not empty is enough to tell the size of its records.
      have hlength := (hfilled block hblock).1
      rw [h.length_data hsize hblock, h.count_toNat hcount hblock] at hlength
      have hsame := Nat.eq_of_mul_eq_mul_left (h.recordsOf_length_pos hblock) hlength
      exact .inr ⟨hsame.symm, fun block hblock => (hfilled block hblock).2⟩
  · rintro (rfl | ⟨rfl, hword⟩) block hblock
    · obtain ⟨record, hrecord, -⟩ := h.exists_record hblock
      cases hrecord
    · refine ⟨?_, hword block hblock⟩
      rw [h.length_data hsize hblock, h.count_toNat hcount hblock]

end Groups

end RecordLog
