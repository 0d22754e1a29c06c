import RecordLog.Proofs.Client.Checks
import RecordLog.Proofs.Schema.Cutting

/-!
# What is made of the bytes that are read

A client that is connected asks for the bytes at an offset that can be exchanged, and what it makes
of the answer is told here for answers that hold whole records: the first record stands at the
offset, and each of the others behind the one before it.
-/

namespace RecordLog

theorem own_eq {s : Schema} {data : Bytes} (h : data.length = s.recordSize) :
    s.own data = .ok ⟨s, data, h, false, none⟩ := Schema.view_eq h false

/-- Pieces of the right size are records, one behind the other. -/
theorem exists_recordsFrom {s : Schema} {pieces : List Bytes}
    (h : ∀ piece ∈ pieces, piece.length = s.recordSize) (offset : UInt64) :
    ∃ records, recordsFrom s offset pieces = .ok records ∧ records.map Record.data = pieces ∧
      ∀ i r, records[i]? = some r →
        r.schema = s ∧ r.offset = some (offset + UInt64.ofNat (i * s.recordSize)) := by
  induction pieces generalizing offset with
  | nil => exact ⟨[], rfl, rfl, fun i r hr => by cases hr⟩
  | cons piece rest ih =>
    obtain ⟨records, hrecords, hdata, hplaces⟩ :=
      ih (fun p hp => h p (List.mem_cons_of_mem piece hp)) (offset + UInt64.ofNat s.recordSize)
    have hown := own_eq (h piece List.mem_cons_self)
    refine ⟨_ :: records, by rw [recordsFrom, hown, hrecords]; rfl, ?_, ?_⟩
    · rw [List.map_cons, hdata]
      rfl
    · intro i r hr
      cases i with
      | zero =>
        obtain rfl := Option.some.inj hr
        refine ⟨rfl, ?_⟩
        rw [Nat.zero_mul]
        exact congrArg some (UInt64.add_zero offset).symm
      | succ i =>
        obtain ⟨hschema, hoffset⟩ := hplaces i r hr
        refine ⟨hschema, ?_⟩
        rw [hoffset, UInt64.add_assoc, ← UInt64.ofNat_add, Nat.succ_mul, Nat.add_comm]

namespace Client

variable {σ : Type} [Service σ] {α β : Type} {c d : Client σ} {h : Handle}
  {offset limit : UInt64} {data : Bytes}

/-! ## Actions that succeed -/

omit [Service σ] in
theorem exists_run_of_bind {first : Action σ α} {next : α → Action σ β} {b : β}
    (h : (first >>= next).run c = (.ok b, d)) :
    ∃ a e, first.run c = (.ok a, e) ∧ (next a).run e = (.ok b, d) := by
  rw [run_bind_eq_resume] at h
  rcases hfirst : first.run c with ⟨fault | a, e⟩
  · rw [hfirst] at h
    cases h
  · rw [hfirst] at h
    exact ⟨a, e, rfl, h⟩

theorem answer_of_request {r : Request} {a : r.Answer} (h : (request r).run c = (.ok a, d)) :
    c.connected = true ∧ d.connected = true ∧
      Service.answer r c.session.state = (.ok a, d.session.state) := by
  cases hconnected : c.connected with
  | false =>
    rw [run_request_of_disconnected hconnected] at h
    cases h
  | true =>
    rw [run_request_of_connected hconnected] at h
    obtain ⟨hanswer, rfl⟩ := Prod.mk.inj h
    exact ⟨rfl, hconnected, Prod.ext hanswer rfl⟩

/-! ## Reading -/

theorem run_readBytes_of_connected (hconnected : c.connected = true) {start : Int64}
    (hoffset : wireOffset offset = .ok start) :
    (readBytes h offset limit).run c =
      ((c.session.call (.read h.id start limit)).1,
        { c with session := (c.session.call (.read h.id start limit)).2 }) := by
  rw [run_readBytes, if_pos hconnected, hoffset]
  exact run_request_of_connected hconnected _

theorem run_readPacked (hsize : data.length = h.schema.recordSize)
    (hrun : (readBytes h offset 1).run c = (.ok data, d)) :
    (readPacked h offset).run c = (.ok data, d) := by
  rw [readPacked, run_bind, hrun]
  dsimp only
  rw [if_neg (not_not_intro hsize)]
  rfl

theorem run_read (hsize : data.length = h.schema.recordSize)
    (hrun : (readBytes h offset 1).run c = (.ok data, d)) :
    (read h offset).run c = (.ok ⟨h.schema, data, hsize, false, some offset⟩, d) := by
  rw [read, run_bind, run_readPacked hsize hrun]
  dsimp only
  rw [own_eq hsize]
  rfl

/-- An answer that holds whole records is read as these records. -/
theorem exists_run_readMany {records : List Bytes}
    (hsizes : ∀ record ∈ records, record.length = h.schema.recordSize)
    (hrun : (readBytes h offset limit).run c = (.ok records.flatten, d)) :
    ∃ read, (readMany h offset limit).run c = (.ok read, d) ∧ read.map Record.data = records ∧
      ∀ i r, read[i]? = some r → r.schema = h.schema ∧
        r.offset = some (offset + UInt64.ofNat (i * h.schema.recordSize)) := by
  have hdivides := (Schema.viewAll_flatten hsizes).1
  obtain ⟨read, hread, hdata, hplaces⟩ := exists_recordsFrom hsizes offset
  refine ⟨read, ?_, hdata, hplaces⟩
  rw [readMany, run_bind, hrun]
  dsimp only
  rw [if_pos hdivides, Schema.split_flatten hsizes, hread]
  rfl

end Client

end RecordLog
