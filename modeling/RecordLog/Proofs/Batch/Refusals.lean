import RecordLog.Proofs.Batch.Validation

/-!
# Why batches are refused

The check goes through the blocks with a total in a word, and stops at the first block that does
not hold what it claims, or with whose count the total outgrows the word. Said in natural numbers,
what it accepts are just the batches that are consistent: no product and no sum that wraps around is
taken for the number that it should be, and nothing is refused for its size alone. A batch whose
records take no room may claim as many of them as a word can count.
-/

namespace RecordLog

attribute [local instance (high)] Zero.ofOfNat0

namespace Batch

/-- The number of records that blocks claim to hold together. -/
def claimed (blocks : List Block) : Nat := (blocks.map (·.count.toNat)).sum

/-- Whether the check passes blocks: each of them is filled, and a word holds what they claim. -/
structure Sound (recordSize : Nat) (blocks : List Block) : Prop where
  filled : ∀ block ∈ blocks, block.Filled recordSize
  fits : claimed blocks < wordLimit

/-- Why blocks are refused. The first that is not filled, or with whose count the total outgrows
a word, gives the reason. -/
inductive Stops (recordSize : Nat) (blocks : List Block) : ArgumentFault → Prop where
  | blockOverflow {front rest : List Block} {block : Block}
      (hblocks : blocks = front ++ block :: rest) (hfront : Sound recordSize front)
      (hover : wordLimit ≤ block.count.toNat * recordSize) :
      Stops recordSize blocks (.blockOverflow block.key block.count recordSize)
  | blockSize {front rest : List Block} {block : Block}
      (hblocks : blocks = front ++ block :: rest) (hfront : Sound recordSize front)
      (hfits : block.count.toNat * recordSize < wordLimit)
      (hlength : block.data.length ≠ block.count.toNat * recordSize) :
      Stops recordSize blocks (.blockSize block.key block.data.length block.count recordSize)
  | countOverflow {front rest : List Block} {block : Block}
      (hblocks : blocks = front ++ block :: rest) (hfront : Sound recordSize front)
      (hfilled : block.Filled recordSize)
      (hover : wordLimit ≤ claimed front + block.count.toNat) :
      Stops recordSize blocks .countOverflow

/-- Why a batch is refused: for one of its blocks, or for a count that is not that of its blocks. -/
inductive Refused (b : Batch) (recordSize : Nat) : ArgumentFault → Prop where
  | stopped {cause : ArgumentFault} (h : Stops recordSize b.blocks cause) :
      Refused b recordSize cause
  | countMismatch {held : UInt64} (hsound : Sound recordSize b.blocks)
      (hheld : held.toNat = claimed b.blocks) (hne : claimed b.blocks ≠ b.count.toNat) :
      Refused b recordSize (.countMismatch b.count held)

/-- Whether every block holds the records that it claims, and the batch those of its blocks, as
natural numbers. -/
structure Consistent (b : Batch) (recordSize : Nat) : Prop where
  blocks : ∀ block ∈ b.blocks, block.data.length = block.count.toNat * recordSize
  count : b.count.toNat = claimed b.blocks

variable {recordSize : Nat} {blocks front rest : List Block} {block : Block} {held : UInt64}
  {cause : ArgumentFault} {b : Batch}

@[simp] theorem claimed_nil : claimed [] = 0 := rfl

@[simp] theorem claimed_append (front rest : List Block) :
    claimed (front ++ rest) = claimed front + claimed rest := by
  simp [claimed]

@[simp] theorem claimed_singleton (block : Block) : claimed [block] = block.count.toNat := by
  simp [claimed]

theorem Sound.nil (recordSize : Nat) : Sound recordSize [] where
  filled := by simp
  fits := by simp [wordLimit, UInt64.size]

theorem sound_append_singleton_iff :
    Sound recordSize (front ++ [block]) ↔
      Sound recordSize front ∧ block.Filled recordSize ∧
        claimed front + block.count.toNat < wordLimit := by
  constructor
  · rintro ⟨hfilled, hfits⟩
    rw [claimed_append, claimed_singleton] at hfits
    refine ⟨⟨fun other hother => hfilled other (by simp [hother]), by omega⟩, ?_, hfits⟩
    exact hfilled block (by simp)
  · rintro ⟨hfront, hblock, hfits⟩
    refine ⟨?_, by simpa using hfits⟩
    intro other hother
    rcases List.mem_append.mp hother with hold | hlast
    · exact hfront.filled other hold
    · rw [List.mem_singleton.mp hlast]
      exact hblock

/-! ## The running total -/

/-- The total goes on to the next block, and has not wrapped around. -/
theorem total_cons (hfilled : block.Filled recordSize)
    (hfits : held.toNat + block.count.toNat < wordLimit) (rest : List Block) :
    total recordSize held (block :: rest) = total recordSize (held + block.count) rest ∧
      (held + block.count).toNat = held.toNat + block.count.toNat := by
  obtain ⟨hlength, hword⟩ := hfilled
  constructor
  · simp only [total]
    rw [if_neg (by omega), if_neg (by omega), if_neg (by omega)]
  · rw [UInt64.toNat_add]
    exact Nat.mod_eq_of_lt hfits

/-- The check goes through sound blocks, with what they claim as its total. -/
theorem exists_total_append (hfront : Sound recordSize front) (rest : List Block) :
    ∃ held : UInt64, held.toNat = claimed front ∧
      total recordSize 0 (front ++ rest) = total recordSize held rest := by
  induction front using List.reverseRecOn generalizing rest with
  | nil => exact ⟨0, rfl, rfl⟩
  | append_singleton front block ih =>
    obtain ⟨hbefore, hfilled, hfits⟩ := sound_append_singleton_iff.mp hfront
    obtain ⟨held, hheld, htotal⟩ := ih hbefore (block :: rest)
    rw [← hheld] at hfits
    obtain ⟨hnext, hadd⟩ := total_cons hfilled hfits rest
    refine ⟨held + block.count, ?_, ?_⟩
    · rw [hadd, hheld, claimed_append, claimed_singleton]
    · rw [List.append_assoc, List.singleton_append, htotal, hnext]

namespace Stops

/-- The blocks behind the one that the check stops at are not looked at. -/
theorem append (h : Stops recordSize blocks cause) (more : List Block) :
    Stops recordSize (blocks ++ more) cause := by
  have hlonger {front rest : List Block} {block : Block}
      (hblocks : blocks = front ++ block :: rest) :
      blocks ++ more = front ++ block :: (rest ++ more) := by
    simp [hblocks]
  cases h with
  | blockOverflow hblocks hfront hover => exact .blockOverflow (hlonger hblocks) hfront hover
  | blockSize hblocks hfront hfits hlength =>
    exact .blockSize (hlonger hblocks) hfront hfits hlength
  | countOverflow hblocks hfront hfilled hover =>
    exact .countOverflow (hlonger hblocks) hfront hfilled hover

theorem total_eq (h : Stops recordSize blocks cause) :
    total recordSize 0 blocks = .error cause := by
  cases h with
  | @blockOverflow front rest block hblocks hfront hover =>
    obtain ⟨held, -, htotal⟩ := exists_total_append hfront (block :: rest)
    rw [hblocks, htotal]
    simp only [total]
    rw [if_pos hover]
  | @blockSize front rest block hblocks hfront hfits hlength =>
    obtain ⟨held, -, htotal⟩ := exists_total_append hfront (block :: rest)
    rw [hblocks, htotal]
    simp only [total]
    rw [if_neg (Nat.not_le.mpr hfits), if_pos hlength]
  | @countOverflow front rest block hblocks hfront hfilled hover =>
    obtain ⟨held, hheld, htotal⟩ := exists_total_append hfront (block :: rest)
    obtain ⟨hlength, hword⟩ := hfilled
    rw [hblocks, htotal]
    simp only [total]
    rw [if_neg (by omega), if_neg (by omega), if_pos (by omega)]

end Stops

/-- Blocks that are not sound have a first one that the check stops at. -/
theorem sound_or_stops (recordSize : Nat) (blocks : List Block) :
    Sound recordSize blocks ∨ ∃ cause, Stops recordSize blocks cause := by
  induction blocks using List.reverseRecOn with
  | nil => exact .inl (.nil recordSize)
  | append_singleton front block ih =>
    rcases ih with hfront | ⟨cause, hstops⟩
    · rcases Nat.lt_or_ge (block.count.toNat * recordSize) wordLimit with hfits | hover
      · by_cases hlength : block.data.length = block.count.toNat * recordSize
        · have hfilled : block.Filled recordSize := ⟨hlength, by omega⟩
          rcases Nat.lt_or_ge (claimed front + block.count.toNat) wordLimit with hcount | hcount
          · exact .inl (sound_append_singleton_iff.mpr ⟨hfront, hfilled, hcount⟩)
          · exact .inr ⟨_, .countOverflow rfl hfront hfilled hcount⟩
        · exact .inr ⟨_, .blockSize rfl hfront hfits hlength⟩
      · exact .inr ⟨_, .blockOverflow rfl hfront hover⟩
    · exact .inr ⟨cause, hstops.append [block]⟩

/-! ## The check -/

theorem Sound.validate_eq (h : Sound recordSize b.blocks) :
    ∃ held : UInt64, held.toNat = claimed b.blocks ∧
      b.validate recordSize =
        if held = b.count then .ok () else .error (.countMismatch b.count held) := by
  obtain ⟨held, hheld, htotal⟩ := exists_total_append h []
  rw [List.append_nil, total] at htotal
  refine ⟨held, hheld, ?_⟩
  rw [validate, htotal]

theorem Refused.validate_eq (h : Refused b recordSize cause) :
    b.validate recordSize = .error cause := by
  cases h with
  | stopped hstops => rw [validate, hstops.total_eq]
  | @countMismatch held hsound hheld hne =>
    obtain ⟨total, htotal, hvalidate⟩ := hsound.validate_eq
    obtain rfl : total = held := UInt64.toNat_inj.mp (htotal.trans hheld.symm)
    have hdiffer : total ≠ b.count := by
      rintro rfl
      exact hne hheld.symm
    rw [hvalidate, if_neg hdiffer]

/-- A batch that is not accepted is refused for just one reason. -/
theorem validate_eq_error_iff :
    b.validate recordSize = .error cause ↔ Refused b recordSize cause := by
  constructor
  · intro h
    rcases sound_or_stops recordSize b.blocks with hsound | ⟨other, hstops⟩
    · obtain ⟨held, hheld, hvalidate⟩ := hsound.validate_eq
      rw [hvalidate] at h
      split at h
      · cases h
      · next hne =>
        obtain rfl := Except.error.inj h
        refine .countMismatch hsound hheld ?_
        rw [← hheld]
        exact fun hsame => hne (UInt64.toNat_inj.mp hsame)
    · have hother := (Refused.stopped hstops).validate_eq
      obtain rfl := Except.error.inj (h.symm.trans hother)
      exact .stopped hstops
  · exact Refused.validate_eq

/-- A batch passes the check just if it is consistent in natural numbers, and any other batch is
refused, for the first thing that is wrong with it. -/
theorem validate_iff_consistent (b : Batch) (recordSize : Nat)
    (hpayloads : ∀ block ∈ b.blocks, block.data.length < UInt64.size) :
    (b.validate recordSize = .ok () ↔ b.Consistent recordSize) ∧
    (¬ b.Consistent recordSize → ∃ cause, b.validate recordSize = .error cause) ∧
    ∀ cause, b.validate recordSize = .error cause ↔ Refused b recordSize cause := by
  have haccepts : b.validate recordSize = .ok () ↔ b.Consistent recordSize := by
    rw [validate_eq_ok_iff]
    constructor
    · rintro ⟨hfilled, hcount⟩
      exact ⟨fun block hblock => (hfilled block hblock).1, hcount.symm⟩
    · rintro ⟨hblocks, hcount⟩
      exact ⟨fun block hblock => ⟨hblocks block hblock, hpayloads block hblock⟩, hcount.symm⟩
  refine ⟨haccepts, ?_, fun cause => validate_eq_error_iff⟩
  intro hinconsistent
  cases h : b.validate recordSize with
  | ok => exact absurd (haccepts.mp h) hinconsistent
  | error cause => exact ⟨cause, rfl⟩

/-- Records without room, as many as a word can count and one more than that, and a product that
would wrap around to the length of an empty block. -/
theorem validate_iff_consistent_of_large_counts :
    let half : Block := ⟨0, [], 0x8000000000000000⟩
    let rest : Block := ⟨1, [], 0x7FFFFFFFFFFFFFFF⟩
    Batch.validate ⟨0xFFFFFFFFFFFFFFFF, [half, rest]⟩ 0 = .ok () ∧
      Batch.validate ⟨0, [half, half]⟩ 0 = .error .countOverflow ∧
      Batch.validate ⟨0x8000000000000000, [half]⟩ 2 =
        .error (.blockOverflow 0 0x8000000000000000 2) := by
  intro half rest
  have hfilled : half.Filled 0 := by simp [half, Block.Filled, wordLimit]
  have hfront : Sound 0 [half] := ⟨by simpa using hfilled, by decide⟩
  have hfits := validate_iff_consistent ⟨0xFFFFFFFFFFFFFFFF, [half, rest]⟩ 0
    (by simp [half, rest])
  have hmore := validate_iff_consistent ⟨0, [half, half]⟩ 0 (by simp [half])
  have hwraps := validate_iff_consistent ⟨0x8000000000000000, [half]⟩ 2 (by simp [half])
  refine ⟨hfits.1.mpr ⟨by simp [half, rest], by decide⟩, ?_, ?_⟩
  · apply (hmore.2.2 _).mpr
    exact .stopped (@Stops.countOverflow 0 _ [half] [] half rfl hfront hfilled (by decide))
  · apply (hwraps.2.2 _).mpr
    exact .stopped (@Stops.blockOverflow 2 _ [] [] half rfl (.nil 2) (by decide))

end Batch

end RecordLog
