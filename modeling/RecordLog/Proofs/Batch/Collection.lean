import RecordLog.Proofs.Batch.Validation
import RecordLog.Proofs.Schema.Packing

/-!
# Nothing is lost while records are collected

A collection is described by the records that it accepted since it last started anew. Each call
adds one record at their end, or none, or starts over; the blocks always group these records, so
a batch that is taken after any calls holds them all, each in its block and in order.
-/

namespace RecordLog

/-- A call on a collection of records. -/
inductive BatchAction where
  | addRecord (record : Bytes)
  | add (now : UInt64) (values : List Value)
  | clear
  | take

namespace BatchAction

/-- The records that a collection has accepted since it last started anew, behind one more
call. -/
def after (s : Schema) (records : List Bytes) : BatchAction → List Bytes
  | .addRecord record => if record.length = s.recordSize then records ++ [record] else records
  | .add now values =>
    match s.pack now values with
    | .ok record => records ++ [record]
    | .error _ => records
  | .clear => []
  | .take => []

/-- The records accepted since the last start, behind a run of calls. -/
def accepted (s : Schema) (actions : List BatchAction) : List Bytes :=
  actions.foldl (after s) []

end BatchAction

namespace BatchBuilder

/-- Performs a call. The answer is the batch, if one was taken; a call that fails leaves the
collection as it was. -/
def perform (b : BatchBuilder) : BatchAction → Except Fault (Option Batch) × BatchBuilder
  | .addRecord record =>
    match b.addRecord record with
    | .ok grown => (.ok none, grown)
    | .error cause => (.error (.argument cause), b)
  | .add now values =>
    match b.add now values with
    | .ok grown => (.ok none, grown)
    | .error fault => (.error fault, b)
  | .clear => (.ok none, b.clear)
  | .take => (.ok (some b.take.1), b.take.2)

def run (b : BatchBuilder) (actions : List BatchAction) : BatchBuilder :=
  actions.foldl (fun b action => (b.perform action).2) b

def grow (b : BatchBuilder) (record : Bytes) : BatchBuilder :=
  { b with blocks := insert (keyOf record) record b.blocks, count := b.count + 1 }

variable {b : BatchBuilder} {record : Bytes} {now : UInt64} {values : List Value}

theorem addRecord_eq_ok (h : record.length = b.schema.recordSize) :
    b.addRecord record = .ok (b.grow record) := by
  have hstamp : ¬ record.length < timestampSize := by
    rw [h, Schema.recordSize_eq]
    exact Nat.not_lt.mpr (Nat.le_add_right _ _)
  rw [addRecord, if_neg hstamp, if_neg (not_not_intro h)]
  rfl

theorem addRecord_eq_error (h : record.length ≠ b.schema.recordSize) :
    ∃ cause, b.addRecord record = .error cause := by
  unfold addRecord
  by_cases hstamp : record.length < timestampSize
  · exact ⟨_, if_pos hstamp⟩
  · rw [if_neg hstamp]
    exact ⟨_, if_pos h⟩

theorem add_eq_ok (h : b.schema.pack now values = .ok record) :
    b.add now values = .ok (b.grow record) := by
  simp only [add, h, addRecord_eq_ok (Schema.length_of_pack h)]
  rfl

theorem add_eq_error {fault : Fault} (h : b.schema.pack now values = .error fault) :
    b.add now values = .error fault := by
  simp only [add, h]

theorem perform_addRecord_eq_ok_iff :
    (b.perform (.addRecord record)).1 = .ok none ↔ record.length = b.schema.recordSize := by
  rw [perform]
  by_cases h : record.length = b.schema.recordSize
  · simp [addRecord_eq_ok h, h]
  · obtain ⟨cause, hcause⟩ := addRecord_eq_error h
    simp [hcause, h]

theorem perform_add_eq_ok_iff :
    (b.perform (.add now values)).1 = .ok none ↔
      ∃ record, b.schema.pack now values = .ok record := by
  rw [perform]
  cases h : b.schema.pack now values with
  | error fault => simp [add_eq_error h]
  | ok record => simp [add_eq_ok h]

theorem perform_of_error {action : BatchAction} {fault : Fault}
    (h : (b.perform action).1 = .error fault) : (b.perform action).2 = b := by
  cases action with
  | addRecord record =>
    simp only [perform] at h ⊢
    split at h
    · cases h
    · rfl
  | add now values =>
    simp only [perform] at h ⊢
    split at h
    · cases h
    · rfl
  | clear => cases h
  | take => cases h

end BatchBuilder

/-- What holds of a collection and the records that it accepted since it last started anew. -/
structure Collected (s : Schema) (b : BatchBuilder) (records : List Bytes) : Prop where
  schema : b.schema = s
  sizes : ∀ record ∈ records, record.length = s.recordSize
  count : b.count = UInt64.ofNat records.length
  groups : Groups b.blocks records

namespace Collected

variable {s : Schema} {b : BatchBuilder} {records : List Bytes}

theorem empty (s : Schema) : Collected s (.empty s) [] where
  schema := rfl
  sizes := by simp
  count := rfl
  groups := .nil

theorem grow (h : Collected s b records) {record : Bytes} (hsize : record.length = s.recordSize) :
    Collected s (b.grow record) (records ++ [record]) where
  schema := h.schema
  sizes := by
    intro other hother
    rcases List.mem_append.mp hother with hold | hnew
    · exact h.sizes other hold
    · rw [List.mem_singleton.mp hnew, hsize]
  count := by
    rw [List.length_append, UInt64.ofNat_add, ← h.count]
    rfl
  groups := h.groups.insert record

theorem perform (h : Collected s b records) (action : BatchAction) :
    Collected s (b.perform action).2 (action.after s records) := by
  have hschema := h.schema
  subst hschema
  cases action with
  | addRecord record =>
    rw [BatchBuilder.perform, BatchAction.after]
    by_cases hsize : record.length = b.schema.recordSize
    · rw [BatchBuilder.addRecord_eq_ok hsize, if_pos hsize]
      exact h.grow hsize
    · obtain ⟨cause, hcause⟩ := BatchBuilder.addRecord_eq_error hsize
      rw [hcause, if_neg hsize]
      exact h
  | add now values =>
    rw [BatchBuilder.perform, BatchAction.after]
    cases hpack : b.schema.pack now values with
    | ok record =>
      rw [BatchBuilder.add_eq_ok hpack]
      exact h.grow (Schema.length_of_pack hpack)
    | error fault =>
      rw [BatchBuilder.add_eq_error hpack]
      exact h
  | clear => exact .empty b.schema
  | take => exact .empty b.schema

theorem run (h : Collected s b records) (actions : List BatchAction) :
    Collected s (b.run actions) (actions.foldl (BatchAction.after s) records) := by
  induction actions generalizing b records with
  | nil => exact h
  | cons action rest ih => exact ih (h.perform action)

/-- A block is read back as the records of its stretch of time. -/
theorem viewAll (h : Collected s b records) {block : Block} (hblock : block ∈ b.blocks) :
    ∃ views, s.viewAll block.data = .ok views ∧
      views.map Record.data = recordsOf block.key records ∧
      ∀ r ∈ views, blockOf r.timestamp = block.key := by
  have hsizes : ∀ record ∈ recordsOf block.key records, record.length = s.recordSize := by
    intro record hrecord
    exact h.sizes record (mem_recordsOf.mp hrecord).1
  obtain ⟨-, views, hviews, hdata⟩ := Schema.viewAll_flatten hsizes
  rw [← h.groups.data block hblock] at hviews
  refine ⟨views, hviews, hdata, ?_⟩
  intro r hr
  have hrecord : r.data ∈ recordsOf block.key records := hdata ▸ List.mem_map_of_mem hr
  exact (mem_recordsOf.mp hrecord).2

end Collected

namespace BatchBuilder

/-- After any calls, the collection counts the records that it accepted since it last started
anew, the next call succeeds just if it brings a record, and a batch that is taken has these
records: each in the one block of its stretch of time, in the order of arrival. Such a batch is
valid for the size of its records only, provided that the bytes of each block can be counted by a
word, as those of a buffer in memory can. -/
theorem run_loses_nothing (s : Schema) (actions : List BatchAction)
    (hcount : (BatchAction.accepted s actions).length < UInt64.size) :
    let b := (empty s).run actions
    let records := BatchAction.accepted s actions
    b.count.toNat = records.length ∧ (b.isEmpty ↔ records = []) ∧
    (∀ record, (b.perform (.addRecord record)).1 = .ok none ↔ record.length = s.recordSize) ∧
    (∀ now values, (b.perform (.add now values)).1 = .ok none ↔
      ∃ record, s.pack now values = .ok record) ∧
    (∀ action fault, (b.perform action).1 = .error fault → (b.perform action).2 = b) ∧
    ∃ batch, b.perform .take = (.ok (some batch), empty s) ∧
      batch.count.toNat = records.length ∧
      (batch.blocks.map Block.key).Nodup ∧
      (∀ key, key ∈ batch.blocks.map Block.key ↔ ∃ record ∈ records, keyOf record = key) ∧
      (∀ block ∈ batch.blocks,
        block.data = (recordsOf block.key records).flatten ∧
        block.count.toNat = (recordsOf block.key records).length ∧ 0 < block.count.toNat ∧
        ∃ views, s.viewAll block.data = .ok views ∧
          views.map Record.data = recordsOf block.key records ∧
          ∀ r ∈ views, blockOf r.timestamp = block.key) ∧
      ∀ blocks, blocks.Perm batch.blocks → ∀ recordSize,
        (Batch.validate ⟨batch.count, blocks⟩ recordSize = .ok () ↔
          records = [] ∨
            recordSize = s.recordSize ∧ ∀ block ∈ blocks, block.data.length < Batch.wordLimit) := by
  intro b records
  have h : Collected s b records := (Collected.empty s).run actions
  have hword : b.count.toNat = records.length := by
    rw [h.count]
    exact UInt64.toNat_ofNat_of_lt' hcount
  refine ⟨hword, ?_, ?_, ?_, ?_, ⟨b.count, b.blocks⟩, ?_, hword, h.groups.nodup,
    h.groups.mem_keys, ?_, ?_⟩
  · rw [isEmpty, decide_eq_true_iff, ← List.length_eq_zero_iff, ← hword]
    exact UInt64.toNat_inj.symm
  · intro record
    rw [perform_addRecord_eq_ok_iff, h.schema]
  · intro now values
    rw [perform_add_eq_ok_iff, h.schema]
  · intro action fault herror
    exact perform_of_error herror
  · rw [← h.schema]
    rfl
  · intro block hblock
    have hblockCount := h.groups.count_toNat hcount hblock
    refine ⟨h.groups.data block hblock, hblockCount, ?_, h.viewAll hblock⟩
    rw [hblockCount]
    exact h.groups.recordsOf_length_pos hblock
  · intro blocks hperm recordSize
    rw [h.count]
    exact (h.groups.perm hperm).validate_eq_ok_iff hcount h.sizes recordSize

/-- Two stretches of time in turn, a record that is too short, and a collection that was cleared
before. -/
theorem run_loses_nothing_interleaved :
    let s : Schema := ⟨.timestamp, [⟨1, 8, .bool, "UP", none, by decide⟩], rfl, rfl,
      ⟨rfl, rfl, rfl, rfl, trivial⟩⟩
    let early : Bytes := [63, 66, 15, 0, 0, 0, 0, 0, 1]
    let late : Bytes := [64, 66, 15, 0, 0, 0, 0, 0, 0]
    let last : Bytes := [65, 66, 15, 0, 0, 0, 0, 0, 1]
    let actions : List BatchAction := [.addRecord late, .clear, .addRecord late, .addRecord early,
      .addRecord [64, 66, 15], .addRecord last]
    let b := (empty s).run actions
    BatchAction.accepted s actions = [late, early, last] ∧ b.count.toNat = 3 ∧
      ∃ batch, b.perform .take = (.ok (some batch), empty s) ∧
        batch.blocks = [⟨1, late ++ last, 2⟩, ⟨0, early, 1⟩] ∧
        batch.validate 9 = .ok () ∧ batch.validate 18 ≠ .ok () := by
  intro s early late last actions b
  have haccepted : BatchAction.accepted s actions = [late, early, last] := by decide
  have hcount : (BatchAction.accepted s actions).length < UInt64.size := by
    rw [haccepted]
    decide
  obtain ⟨hword, -, -, -, -, batch, htake, -, -, -, -, hvalid⟩ :=
    run_loses_nothing s actions hcount
  rw [haccepted] at hword hvalid
  have htaken : batch = ⟨b.count, b.blocks⟩ :=
    (Option.some.inj (Except.ok.inj (congrArg Prod.fst htake))).symm
  have hblocks : batch.blocks = [⟨1, late ++ last, 2⟩, ⟨0, early, 1⟩] := by
    rw [htaken]
    decide
  have hself (recordSize : Nat) := hvalid batch.blocks (List.Perm.refl _) recordSize
  refine ⟨haccepted, hword, batch, htake, hblocks, (hself 9).mpr (.inr ⟨rfl, ?_⟩), ?_⟩
  · rw [hblocks]
    decide
  · intro h
    rcases (hself 18).mp h with hempty | ⟨hsize, -⟩
    · cases hempty
    · exact absurd hsize (by decide)

end BatchBuilder

end RecordLog
