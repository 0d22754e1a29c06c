import RecordLog.Proofs.Client.Reading
import RecordLog.Proofs.Schema.Decoding

/-!
# Reading many records is reading each of them

Several records that are read at once are the ones that are read one by one, at the offsets that
they are given. These are counted on from the first in a word, which has room for all of them: an
offset that can be asked for leaves one bit of it free, and so does the length of an answer.
-/

namespace RecordLog

theorem isView_of_recordsFrom {s : Schema} {offset : UInt64} {pieces : List Bytes}
    {records : List Record} (h : recordsFrom s offset pieces = .ok records) {r : Record}
    (hr : r ∈ records) : r.isView = false := by
  induction pieces generalizing offset records with
  | nil =>
    obtain rfl := Except.ok.inj h
    cases hr
  | cons piece rest ih =>
    rw [recordsFrom, Schema.own, Schema.record] at h
    split at h
    · cases h
    · next record hown =>
      cases hrest : recordsFrom s (offset + UInt64.ofNat s.recordSize) rest with
      | error fault =>
        rw [hrest] at h
        cases h
      | ok later =>
        rw [hrest] at h
        obtain rfl := Except.ok.inj h
        rcases List.mem_cons.mp hr with rfl | hlater
        · split at hown
          · obtain rfl := Except.ok.inj hown
            rfl
          · cases hown
        · exact ih hrest hlater

namespace Client

variable {σ : Type} [Service σ] {c : Client σ} {h : Handle} {offset limit : UInt64}
  {data piece : Bytes}

/-- Whether a client is connected to a service that answers a read with certain bytes. -/
structure Reads (c : Client σ) (log : Int64) (offset limit : UInt64) (data : Bytes) : Prop where
  connected : c.connected = true
  answer : (Service.answer (.read log (Int64.ofNat offset.toNat) limit) c.session.state).1 =
    .ok data

namespace Reads

theorem exists_run_readBytes (hread : c.Reads h.id offset limit data)
    (hoffset : offset.toNat < 2 ^ 63) : ∃ d, (readBytes h offset limit).run c = (.ok data, d) := by
  have hwire : wireOffset offset = .ok (Int64.ofNat offset.toNat) := if_pos hoffset
  exact ⟨_, (run_readBytes_of_connected hread.connected hwire).trans (Prod.ext hread.answer rfl)⟩

theorem run_readMany_of_not_divides (hread : c.Reads h.id offset limit data)
    (hoffset : offset.toNat < 2 ^ 63) (hrest : ¬ h.schema.Divides data) :
    ((readMany h offset limit).run c).1 =
      .error (.decoding (.readSize data.length h.schema.recordSize)) := by
  obtain ⟨d, hrun⟩ := hread.exists_run_readBytes hoffset
  rw [readMany, run_bind, hrun]
  dsimp only
  rw [if_neg hrest]
  rfl

theorem run_readTexts (hread : c.Reads h.id offset 1 piece) (hoffset : offset.toNat < 2 ^ 63)
    (hsize : piece.length = h.schema.recordSize) :
    ((read h offset).run c).1 = .ok ⟨h.schema, piece, hsize, false, some offset⟩ ∧
      ∀ texts, Record.texts ⟨h.schema, piece, hsize, false, some offset⟩ = .ok texts →
        ((readTexts h offset).run c).1 = .ok texts := by
  obtain ⟨d, hrun⟩ := hread.exists_run_readBytes hoffset
  have hone := run_read hsize hrun
  refine ⟨congrArg Prod.fst hone, ?_⟩
  intro texts htexts
  rw [readTexts, run_bind, hone]
  dsimp only
  rw [htexts]
  rfl

end Reads

/-- Whole records that are read at once. -/
theorem exists_run_readManyTexts (hread : c.Reads h.id offset limit data)
    (hoffset : offset.toNat < 2 ^ 63) (hdivides : h.schema.Divides data) :
    ∃ records rows, ((readMany h offset limit).run c).1 = .ok records ∧
      ((readManyTexts h offset limit).run c).1 = .ok rows ∧
      records.map Record.data = h.schema.split data ∧
      List.Forall₂ (fun r texts => r.texts = .ok texts) records rows ∧
      ∀ i r, records[i]? = some r → r.schema = h.schema ∧ r.isView = false ∧
        r.offset = some (offset + UInt64.ofNat (i * h.schema.recordSize)) := by
  obtain ⟨d, hrun⟩ := hread.exists_run_readBytes hoffset
  have hsizes : ∀ piece ∈ h.schema.split data, piece.length = h.schema.recordSize :=
    fun _ => Schema.length_of_mem_split
  obtain ⟨records, hrecords, hdata, hplaces⟩ := exists_recordsFrom hsizes offset
  have hmany : (readMany h offset limit).run c = (.ok records, d) := by
    rw [readMany, run_bind, hrun]
    dsimp only
    rw [if_pos hdivides, hrecords]
    rfl
  obtain ⟨rows, hrows, htexts⟩ := exists_mapM fun r (_ : r ∈ records) =>
    r.exists_texts.imp fun _ => And.left
  refine ⟨records, rows, congrArg Prod.fst hmany, ?_, hdata, htexts, ?_⟩
  · rw [readManyTexts, run_bind, hmany]
    dsimp only
    rw [hrows]
    rfl
  · intro i r hr
    obtain ⟨hschema, hplace⟩ := hplaces i r hr
    exact ⟨hschema, isView_of_recordsFrom hrecords (List.mem_of_getElem? hr), hplace⟩

/-- The offset of a record is not more than where the answer ends. -/
theorem toNat_place {s : Schema} {i : Nat} (hoffset : offset.toNat < 2 ^ 63)
    (hsmall : data.length < 2 ^ 63) (hi : i < (s.split data).length) :
    (offset + UInt64.ofNat (i * s.recordSize)).toNat = offset.toNat + i * s.recordSize := by
  rw [Schema.split, Bytes.length_pieces] at hi
  have hend : i * s.recordSize ≤ data.length :=
    (Nat.mul_le_mul_right _ hi.le).trans (Nat.div_mul_le_self _ _)
  have hword : UInt64.size = 2 ^ 64 := rfl
  rw [UInt64.toNat_add, UInt64.toNat_ofNat_of_lt' (by omega), Nat.mod_eq_of_lt (by omega)]

/-- Whether a record and its texts are what any client gets that reads nothing else, provided that
its service answers with a certain piece of the log. -/
def ReadsAlone (h : Handle) (place : UInt64) (piece : Bytes) (r : Record)
    (texts : List String) : Prop :=
  ∀ (τ : Type) [Service τ] (d : Client τ), d.Reads h.id place 1 piece →
    ((read h place).run d).1 = .ok r ∧ ((readTexts h place).run d).1 = .ok texts

theorem readsAlone {place : UInt64} {r : Record} {texts : List String}
    (hplace : place.toNat < 2 ^ 63) (hschema : r.schema = h.schema) (hview : r.isView = false)
    (hoffset : r.offset = some place) (htexts : r.texts = .ok texts) :
    ReadsAlone h place r.data r texts := by
  obtain ⟨schema, data, hsize, isView, at?⟩ := r
  dsimp only at hschema hview hoffset
  subst hschema hview hoffset
  intro τ _ d hread
  obtain ⟨hone, hall⟩ := hread.run_readTexts hplace hsize
  exact ⟨hone, hall texts htexts⟩

/-- An answer to a read of many records is refused unless it holds whole records. Otherwise it is
cut into them; their offsets are counted on without going past the end of a word, and each of them
that can be asked for is what is read there alone. -/
theorem readMany_agrees (hoffset : offset.toNat < 2 ^ 63) (hsmall : data.length < 2 ^ 63)
    (hread : c.Reads h.id offset limit data) :
    ((∃ cause, ((readMany h offset limit).run c).1 = .error (.decoding cause)) ↔
      ¬ h.schema.recordSize ∣ data.length) ∧
    (h.schema.recordSize ∣ data.length →
      ∃ records rows, ((readMany h offset limit).run c).1 = .ok records ∧
        ((readManyTexts h offset limit).run c).1 = .ok rows ∧
        records.length = data.length / h.schema.recordSize ∧
        rows.length = records.length ∧
        (records.map Record.data).flatten = data ∧
        ∀ (i : Nat) (r : Record), records[i]? = some r →
          ∃ place texts, r.offset = some place ∧
            place.toNat = offset.toNat + i * h.schema.recordSize ∧
            rows[i]? = some texts ∧
            (place.toNat < 2 ^ 63 → ReadsAlone h place
              ((data.drop (i * h.schema.recordSize)).take h.schema.recordSize) r texts)) := by
  have hwhole : h.schema.recordSize ∣ data.length ↔ h.schema.Divides data :=
    Nat.dvd_iff_mod_eq_zero
  rw [hwhole]
  refine ⟨⟨?_, ?_⟩, ?_⟩
  · rintro ⟨cause, hrefused⟩ hdivides
    obtain ⟨records, rows, hrecords, -⟩ := exists_run_readManyTexts hread hoffset hdivides
    rw [hrecords] at hrefused
    cases hrefused
  · intro hrest
    exact ⟨_, hread.run_readMany_of_not_divides hoffset hrest⟩
  · intro hdivides
    obtain ⟨records, rows, hrecords, hrows, hdata, htexts, hall⟩ :=
      exists_run_readManyTexts hread hoffset hdivides
    have hlength : records.length = (h.schema.split data).length := by
      rw [← hdata, List.length_map]
    refine ⟨records, rows, hrecords, hrows, ?_, htexts.length_eq.symm, ?_, ?_⟩
    · rw [hlength, Schema.split, Bytes.length_pieces]
    · rw [hdata, Schema.flatten_split hdivides]
    · intro i r hr
      obtain ⟨hschema, hview, hplace⟩ := hall i r hr
      obtain ⟨hi, rfl⟩ := List.getElem?_eq_some_iff.mp hr
      have hrow : i < rows.length := htexts.length_eq ▸ hi
      refine ⟨_, rows[i], hplace, toNat_place hoffset hsmall (hlength ▸ hi),
        List.getElem?_eq_getElem hrow, ?_⟩
      intro hnear
      have hpiece : (h.schema.split data)[i]? = some records[i].data := by
        rw [← hdata, List.getElem?_map, hr]
        rfl
      rw [← Schema.eq_of_split_getElem? hdivides hpiece]
      exact readsAlone hnear hschema hview hplace (htexts.get hi hrow)

/-- A service that shows the end of a log. -/
structure Excerpt where
  recordSize : Nat
  /-- Where the bytes that are shown stand in the log. -/
  start : Int64
  data : Bytes

namespace Excerpt

def answer (s : Excerpt) : (r : Request) → Except Fault r.Answer
  | .read _ offset limit =>
    .ok ((s.data.drop (offset - s.start).toInt.toNat).take (limit.toNat * s.recordSize))
  | r => Granting.answer r

instance : Service Excerpt where
  answer r s := (s.answer r, s)
  backlog _ := 0
  backlog_lt _ _ _ _ h := by cases h

end Excerpt

/-- Two records at the end of what can be asked for: the first is read alone as it is read with the
second, which cannot be. -/
theorem readMany_agrees_at_last_offset :
    let h : Handle := ⟨0, "log", ⟨.timestamp, [], rfl, rfl, rfl, rfl, trivial⟩⟩
    let last : UInt64 := 0x7FFFFFFFFFFFFFF8
    let past : UInt64 := 0x8000000000000000
    let front : Bytes := [1, 0, 0, 0, 0, 0, 0, 0]
    let back : Bytes := [2, 0, 0, 0, 0, 0, 0, 0]
    let c : Client Excerpt := ⟨{}, true, ⟨⟨8, 0x7FFFFFFFFFFFFFF8, front ++ back⟩, []⟩⟩
    ∃ records rows, ((readMany h last 2).run c).1 = .ok records ∧
      ((readManyTexts h last 2).run c).1 = .ok rows ∧ records.length = 2 ∧
      (∃ r texts, records[0]? = some r ∧ rows[0]? = some texts ∧
        ((read h last).run c).1 = .ok r ∧ ((readTexts h last).run c).1 = .ok texts) ∧
      (∃ r, records[1]? = some r ∧ r.offset = some past) ∧
      ((read h past).run c).1 = .error (.argument (.offset past)) := by
  intro h last past front back c
  have hboth : c.Reads h.id last 2 (front ++ back) := ⟨rfl, by decide⟩
  have hfirst : c.Reads h.id last 1 front := ⟨rfl, by decide⟩
  obtain ⟨records, rows, hrecords, hrows, hlength, -, -, hall⟩ :=
    (readMany_agrees (by decide) (by decide) hboth).2 (by decide)
  have htwo : records.length = 2 := hlength.trans (by decide)
  refine ⟨records, rows, hrecords, hrows, htwo, ?_, ?_, rfl⟩
  · have hr : records[0]? = some records[0] := List.getElem?_eq_getElem (by omega)
    obtain ⟨place, texts, -, hplace, htexts, halone⟩ := hall 0 _ hr
    obtain rfl : place = last := UInt64.toNat.inj hplace
    obtain ⟨hread, hreadTexts⟩ := halone (by decide) Excerpt c hfirst
    exact ⟨_, texts, hr, htexts, hread, hreadTexts⟩
  · have hr : records[1]? = some records[1] := List.getElem?_eq_getElem (by omega)
    obtain ⟨place, -, hoffset, hplace, -⟩ := hall 1 _ hr
    obtain rfl : place = past := UInt64.toNat.inj hplace
    exact ⟨_, hr, hoffset⟩

end Client

end RecordLog
