import RecordLog.Proofs.Batch.Validation
import RecordLog.Proofs.Client.Reading
import RecordLog.Proofs.Wire.Layout

/-!
# Stores

A store is a service that keeps the bytes of every log, one record behind the other. What is
appended to a log goes to its end, and an append is answered with where that was. What is
promised of a store is told for requests that succeed; but that it reads what it keeps is promised
for every read, and that it goes on to keep it.
-/

namespace RecordLog

attribute [local instance (high)] Zero.ofOfNat0

/-- A log as a store keeps it. -/
structure StoredLog where
  recordSize : Nat
  data : Bytes

namespace StoredLog

def extend (l : StoredLog) (data : Bytes) : StoredLog := { l with data := l.data ++ data }

/-- The bytes from an offset on, of no more than a number of records. -/
def slice (l : StoredLog) (offset count : Nat) : Bytes :=
  (l.data.drop offset).take (count * l.recordSize)

end StoredLog

class Store (σ : Type) extends Service σ where
  /-- The log that has a number. -/
  log? : σ → Int64 → Option StoredLog
  of_create : ∀ {name : String} {columns : List WireColumn} {mode : StorageMode} {s t : σ}
    {log : Int64}, answer (.create name columns mode) s = (.ok log, t) →
      log? t log = some ⟨wireSize columns, []⟩
  of_append : ∀ {log offset : Int64} {record : Bytes} {s t : σ} {l : StoredLog},
    log? s log = some l → answer (.append log record) s = (.ok offset, t) →
      offset = Int64.ofNat l.data.length ∧ log? t log = some (l.extend record)
  of_appendBatch : ∀ {log offset : Int64} {batch : Batch} {s t : σ} {l : StoredLog},
    log? s log = some l → answer (.appendBatch log batch) s = (.ok offset, t) →
      offset = Int64.ofNat l.data.length ∧
        log? t log = some (l.extend (batch.blocks.map Block.data).flatten)
  read_of_lt : ∀ {log offset : Int64} {count : UInt64} {s : σ} {l : StoredLog},
    log? s log = some l → 0 ≤ offset → offset.toInt.toNat < l.data.length →
      (answer (.read log offset count) s).1 = .ok (l.slice offset.toInt.toNat count.toNat)
  /-- There is nothing to be read at the end of a log. -/
  read_of_le : ∀ {log offset : Int64} {count : UInt64} {s : σ} {l : StoredLog},
    log? s log = some l → 0 ≤ offset → l.data.length ≤ offset.toInt.toNat →
      ∃ fault, (answer (.read log offset count) s).1 = .error fault
  count_eq : ∀ {log : Int64} {s : σ} {l : StoredLog}, log? s log = some l →
    (answer (.count log) s).1 = .ok (Int64.ofNat (l.data.length / l.recordSize))
  log?_read : ∀ (log offset : Int64) (count : UInt64) (s : σ),
    log? (answer (.read log offset count) s).2 = log? s
  log?_count : ∀ (log : Int64) (s : σ), log? (answer (.count log) s).2 = log? s

theorem wireSize_toWire (s : Schema) : wireSize s.toWire = s.recordSize := by
  have hsize : (fun c : WireColumn => c.size.toNat) ∘ Column.toWire = (·.type.size) :=
    funext fun c => c.type.toNat_ofNat_size
  rw [wireSize, Schema.toWire, List.map_map, hsize]
  rfl

/-! ## Numbers that can be exchanged -/

section

variable {n : Nat} (h : n < 2 ^ 63)
include h

theorem toNat_ofNat_of_small : (Int64.ofNat n).toInt.toNat = n := by
  rw [Int64.toInt_ofNat_of_lt h, Int.toNat_natCast]

theorem ofNat_nonneg_of_small : 0 ≤ Int64.ofNat n := by
  rw [Int64.le_iff_toInt_le, Int64.toInt_ofNat_of_lt h]
  exact Int.natCast_nonneg n

theorem lt_size_of_small : n < UInt64.size := Nat.lt_trans h (by decide)

end

/-! ## What is appended -/

/-- The ways to append to a log. -/
inductive Appending where
  | packed (record : Bytes)
  | values (now : UInt64) (values : List Value)
  | texts (now : UInt64) (texts : List String)
  | batch (batch : Batch)

namespace Appending

def act {σ : Type} [Service σ] (h : Handle) : Appending → Action σ UInt64
  | packed record => Client.appendPacked h record
  | values now row => Client.append h now row
  | texts now row => Client.appendTexts h now row
  | batch b => Client.appendBatch h b

/-- The records that are sent. -/
def sent (s : Schema) : Appending → List Bytes
  | packed record => [record]
  | values now row => (s.pack now row).toOption.toList
  | texts now row => (s.packTexts now row).toOption.toList
  | batch b => b.blocks.flatMap fun block => s.split block.data

end Appending

/-- The blocks of a batch that is valid are whole records. -/
theorem Batch.divides_of_validate {b : Batch} {s : Schema} (h : b.validate s.recordSize = .ok ())
    {block : Block} (hblock : block ∈ b.blocks) : s.Divides block.data := by
  have hfilled := (validate_eq_ok_iff.mp h).1 block hblock
  rw [Schema.Divides, hfilled.1, Nat.mul_mod_left]

theorem Batch.flatten_sent {b : Batch} {s : Schema} (h : b.validate s.recordSize = .ok ()) :
    ((Appending.batch b).sent s).flatten = (b.blocks.map Block.data).flatten := by
  rw [Appending.sent, List.flatMap_def, List.flatten_flatten, List.map_map]
  congr 1
  apply List.map_congr_left
  intro block hblock
  exact Schema.flatten_split (divides_of_validate h hblock)

namespace Client

variable {σ : Type} [Store σ]

/-- Whether a client is connected to a store that keeps just certain records in the log of a
handle. -/
structure Holds (h : Handle) (records : List Bytes) (c : Client σ) : Prop where
  connected : c.connected = true
  sizes : ∀ record ∈ records, record.length = h.schema.recordSize
  log : Store.log? c.session.state h.id = some ⟨h.schema.recordSize, records.flatten⟩

theorem holds_of_create {name : String} {schema : Schema} {c d : Client σ} {h : Handle}
    (hrun : (create name schema).run c = (.ok h, d)) : h.schema = schema ∧ Holds h [] d := by
  have hcreate : (createIn c.config.mode name schema).run c = (.ok h, d) := hrun
  obtain ⟨id, e, hasked, hmade⟩ := exists_run_of_bind hcreate
  obtain ⟨hhandle, rfl⟩ := Prod.mk.inj hmade
  obtain rfl := Except.ok.inj hhandle
  obtain ⟨-, hconnected, hanswer⟩ := answer_of_request hasked
  have hlog := Store.of_create hanswer
  rw [wireSize_toWire] at hlog
  exact ⟨rfl, hconnected, fun _ hr => absurd hr List.not_mem_nil, hlog⟩

theorem toNat_of_returnedOffset {n : Nat} {offset : UInt64} (hsmall : n < 2 ^ 63)
    (h : returnedOffset (Int64.ofNat n) = .ok offset) : offset.toNat = n := by
  unfold returnedOffset at h
  split at h
  · cases h
  · obtain rfl := Except.ok.inj h
    rw [toNat_ofNat_of_small hsmall, UInt64.toNat_ofNat_of_lt' (lt_size_of_small hsmall)]

namespace Holds

variable {h : Handle} {records : List Bytes} {c d : Client σ} {offset : UInt64}

theorem length_flatten (hc : Holds h records c) :
    records.flatten.length = records.length * h.schema.recordSize := Groups.length_flatten hc.sizes

/-- What is put at the end of the log are records, if it is cut into them. -/
theorem extend (hc : Holds h records c) {more : List Bytes}
    (hmore : ∀ record ∈ more, record.length = h.schema.recordSize) (hconnected : d.connected = true)
    (hlog : Store.log? d.session.state h.id =
      some (StoredLog.extend ⟨h.schema.recordSize, records.flatten⟩ more.flatten)) :
    Holds h (records ++ more) d where
  connected := hconnected
  sizes := by
    intro record hrecord
    exact (List.mem_append.mp hrecord).elim (hc.sizes record) (hmore record)
  log := by
    rw [hlog, List.flatten_append]
    rfl

theorem appendPacked (hc : Holds h records c) (hsmall : records.flatten.length < 2 ^ 63)
    {record : Bytes} (hrun : (Client.appendPacked h record).run c = (.ok offset, d)) :
    Holds h (records ++ [record]) d ∧ offset.toNat = records.length * h.schema.recordSize := by
  unfold Client.appendPacked at hrun
  split at hrun
  · cases hrun
  · next hsize =>
    obtain ⟨returned, e, hasked, hreturned⟩ := exists_run_of_bind hrun
    obtain ⟨hoffset, rfl⟩ := Prod.mk.inj hreturned
    obtain ⟨-, hconnected, hanswer⟩ := answer_of_request hasked
    obtain ⟨rfl, hlog⟩ := Store.of_append hc.log hanswer
    constructor
    · apply hc.extend _ hconnected
      · rw [List.flatten_singleton]
        exact hlog
      · intro r hr
        rw [List.mem_singleton.mp hr]
        exact Decidable.not_not.mp hsize
    · rw [toNat_of_returnedOffset hsmall hoffset, hc.length_flatten]

theorem appendPacked_of_lift (hc : Holds h records c) (hsmall : records.flatten.length < 2 ^ 63)
    {packed : Except Fault Bytes}
    (hrun : (lift packed >>= fun record => Client.appendPacked h record).run c = (.ok offset, d)) :
    Holds h (records ++ packed.toOption.toList) d ∧
      offset.toNat = records.length * h.schema.recordSize := by
  obtain ⟨record, e, hpacked, hsent⟩ := exists_run_of_bind hrun
  obtain ⟨rfl, rfl⟩ := Prod.mk.inj hpacked
  exact hc.appendPacked hsmall hsent

theorem appendBatch (hc : Holds h records c) (hsmall : records.flatten.length < 2 ^ 63)
    {b : Batch} (hrun : (Client.appendBatch h b).run c = (.ok offset, d)) :
    Holds h (records ++ (Appending.batch b).sent h.schema) d ∧
      offset.toNat = records.length * h.schema.recordSize := by
  obtain ⟨_, e, hchecked, hsent⟩ := exists_run_of_bind hrun
  obtain ⟨hchecked, rfl⟩ := Prod.mk.inj hchecked
  have hvalid : b.validate h.schema.recordSize = .ok () := by
    cases hvalidate : b.validate h.schema.recordSize with
    | ok => rfl
    | error cause =>
      rw [hvalidate] at hchecked
      cases hchecked
  obtain ⟨returned, e, hasked, hreturned⟩ := exists_run_of_bind hsent
  obtain ⟨hoffset, rfl⟩ := Prod.mk.inj hreturned
  obtain ⟨-, hconnected, hanswer⟩ := answer_of_request hasked
  obtain ⟨rfl, hlog⟩ := Store.of_appendBatch hc.log hanswer
  constructor
  · apply hc.extend _ hconnected
    · rw [Batch.flatten_sent hvalid]
      exact hlog
    · intro record hrecord
      obtain ⟨block, -, hpiece⟩ := List.mem_flatMap.mp hrecord
      exact Schema.length_of_mem_split hpiece
  · rw [toNat_of_returnedOffset hsmall hoffset, hc.length_flatten]

/-- Whatever way is taken, what is sent is what the log holds behind its records, and the offset is
where that begins. -/
theorem append (hc : Holds h records c) (hsmall : records.flatten.length < 2 ^ 63)
    {a : Appending} (hrun : (a.act h).run c = (.ok offset, d)) :
    Holds h (records ++ a.sent h.schema) d ∧
      offset.toNat = records.length * h.schema.recordSize := by
  cases a with
  | packed record => exact hc.appendPacked hsmall hrun
  | values now row => exact hc.appendPacked_of_lift hsmall hrun
  | texts now row => exact hc.appendPacked_of_lift hsmall hrun
  | batch b => exact hc.appendBatch hsmall hrun

/-- The records of all that is appended, one behind the other. -/
theorem appendAll (hc : Holds h records c) {appends : List Appending} {offsets : List UInt64}
    (hsmall : (records ++ appends.flatMap (·.sent h.schema)).flatten.length < 2 ^ 63)
    (hrun : (appends.mapM (Appending.act h)).run c = (.ok offsets, d)) :
    Holds h (records ++ appends.flatMap (·.sent h.schema)) d ∧
      offsets.length = appends.length ∧ ∀ i offset, offsets[i]? = some offset →
        offset.toNat =
          (records ++ (appends.take i).flatMap (·.sent h.schema)).length * h.schema.recordSize := by
  induction appends generalizing records c offsets with
  | nil =>
    obtain ⟨hnone, rfl⟩ := Prod.mk.inj hrun
    obtain rfl := Except.ok.inj hnone
    rw [List.flatMap_nil, List.append_nil]
    exact ⟨hc, rfl, fun i offset hoffset => by cases hoffset⟩
  | cons a rest ih =>
    rw [List.mapM_cons] at hrun
    obtain ⟨first, e, hfirst, hbehind⟩ := exists_run_of_bind hrun
    obtain ⟨later, e', hlater, hmade⟩ := exists_run_of_bind hbehind
    obtain ⟨hoffsets, rfl⟩ := Prod.mk.inj hmade
    obtain rfl := Except.ok.inj hoffsets
    rw [List.flatMap_cons, ← List.append_assoc] at hsmall ⊢
    -- The log only grows, so the offset of this append is as small as the end of the log.
    have hroom : records.flatten.length < 2 ^ 63 := by
      simp only [List.flatten_append, List.length_append] at hsmall ⊢
      omega
    obtain ⟨he, hplace⟩ := hc.append hroom hfirst
    obtain ⟨hd, hlength, hplaces⟩ := ih he hsmall hlater
    refine ⟨hd, by rw [List.length_cons, hlength, List.length_cons], ?_⟩
    intro i offset hoffset
    cases i with
    | zero =>
      obtain rfl := Option.some.inj hoffset
      rw [List.take_zero, List.flatMap_nil, List.append_nil]
      exact hplace
    | succ i =>
      rw [List.take_succ_cons, List.flatMap_cons, ← List.append_assoc]
      exact hplaces i offset hoffset

end Holds

end Client

/-! ## A store in memory -/

/-- Logs by their numbers, and the number of the next log. -/
structure Shelf where
  logs : Int64 → Option StoredLog
  next : Int64

namespace Shelf

def put (s : Shelf) (log : Int64) (l : StoredLog) : Shelf :=
  { s with logs := fun other => if other = log then some l else s.logs other }

/-- The answer to a request about a log that is on the shelf. -/
def withLog {α : Type} (s : Shelf) (log : Int64) (f : StoredLog → Except Fault α × Shelf) :
    Except Fault α × Shelf :=
  match s.logs log with
  | some l => f l
  | none => (.error (.server (.reported "unknown log")), s)

def answer : (r : Request) → Shelf → Except Fault r.Answer × Shelf
  | .create _ columns _, s =>
    (.ok s.next, { s.put s.next ⟨wireSize columns, []⟩ with next := s.next + 1 })
  | .append log record, s =>
    s.withLog log fun l => (.ok (Int64.ofNat l.data.length), s.put log (l.extend record))
  | .appendBatch log batch, s =>
    s.withLog log fun l => (.ok (Int64.ofNat l.data.length),
      s.put log (l.extend (batch.blocks.map Block.data).flatten))
  | .read log offset count, s =>
    s.withLog log fun l =>
      if 0 ≤ offset ∧ offset.toInt.toNat < l.data.length then
        (.ok (l.slice offset.toInt.toNat count.toNat), s)
      else (.error (.server (.reported "not yet written")), s)
  | .count log, s =>
    s.withLog log fun l => (.ok (Int64.ofNat (l.data.length / l.recordSize)), s)
  | r, s => (Client.Granting.answer r, s)

theorem put_logs (s : Shelf) (log : Int64) (l : StoredLog) : (s.put log l).logs log = some l :=
  if_pos rfl

instance : Store Shelf where
  answer := answer
  backlog _ := 0
  backlog_lt _ _ _ _ h := by cases h
  log? := logs
  of_create := by
    rintro name columns mode s t log ⟨⟩
    exact s.put_logs s.next _
  of_append := by
    intro log offset record s t l hlog h
    simp only [answer, withLog, hlog] at h
    obtain ⟨hoffset, rfl⟩ := Prod.mk.inj h
    exact ⟨(Except.ok.inj hoffset).symm, s.put_logs log _⟩
  of_appendBatch := by
    intro log offset batch s t l hlog h
    simp only [answer, withLog, hlog] at h
    obtain ⟨hoffset, rfl⟩ := Prod.mk.inj h
    exact ⟨(Except.ok.inj hoffset).symm, s.put_logs log _⟩
  read_of_lt := by
    intro log offset count s l hlog hnonneg hlt
    simp only [answer, withLog, hlog, if_pos (And.intro hnonneg hlt)]
  read_of_le := by
    intro log offset count s l hlog hnonneg hle
    have hpast : ¬ (0 ≤ offset ∧ offset.toInt.toNat < l.data.length) := fun h =>
      Nat.not_lt.mpr hle h.2
    simp only [answer, withLog, hlog, if_neg hpast]
    exact ⟨_, rfl⟩
  count_eq := by
    intro log s l hlog
    simp only [answer, withLog, hlog]
  log?_read log offset count s := by
    simp only [answer, withLog]
    split
    · split <;> rfl
    · rfl
  log?_count log s := by
    simp only [answer, withLog]
    split <;> rfl

end Shelf

end RecordLog
