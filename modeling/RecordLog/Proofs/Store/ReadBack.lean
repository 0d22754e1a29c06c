import RecordLog.Proofs.Client.Runs
import RecordLog.Proofs.Store.Logs

/-!
# Records that were appended are read back

A client that appended records to a log of a store finds there just what it sent, in the order in
which it was sent, whatever ways it took to append them and however often it has read before.
-/

namespace RecordLog

/-- Whether a record is the one that has a certain number of others in front of it. -/
structure Record.StandsAt (r : Record) (s : Schema) (records : List Bytes) (k : Nat) : Prop where
  schema : r.schema = s
  data : records[k]? = some r.data
  offset : r.offset.map UInt64.toNat = some (k * s.recordSize)
  version : r.version.map UInt64.toNat = some ((k + 1) * s.recordSize)

/-- Whether an operation only looks at what is in a log. -/
def Operation.isReading : Operation → Bool
  | .count .. | .readPacked .. | .read .. | .readMany .. | .readTexts .. | .readManyTexts .. => true
  | _ => false

theorem Operation.opening_of_isReading {op : Operation} (hop : op.isReading = true)
    {config : Config} {r : Request} (h : op.opening config = .ok r) :
    (∃ log offset limit, r = .read log offset limit) ∨ ∃ log, r = .count log := by
  cases op with
  | count h' =>
    obtain rfl := Except.ok.inj h
    exact .inr ⟨_, rfl⟩
  | readPacked | read | readMany | readTexts | readManyTexts =>
    simp only [opening, atOffset] at h
    split at h
    · obtain rfl := Except.ok.inj h
      exact .inl ⟨_, _, _, rfl⟩
    · cases h
  | _ => cases hop

theorem Operation.quiet_of_isReading {σ α : Type} [Service σ] {op : Operation}
    (hop : op.isReading = true) {d : Client σ} {out : Except Fault α × Client σ}
    (h : op.GoesOn d out) : out.2 = d := by
  cases op with
  | count | readPacked | read | readMany | readTexts | readManyTexts => exact h
  | _ => cases hop

namespace Client.Holds

variable {σ : Type} [Store σ] {h : Handle} {records : List Bytes} {c : Client σ} {k : Nat}
  {offset : UInt64}

/-- To look at a log leaves it as it is. -/
theorem perform (hc : Holds h records c) {op : Operation} (hop : op.isReading = true) :
    Holds h records (c.perform op) := by
  have hne : op ≠ .disconnect := by
    rintro rfl
    cases hop
  cases Operation.follows hne c with
  | refused hopening hrun =>
    rw [Client.perform, hrun]
    exact hc
  | @asked r next hopening hrun hnext =>
    have hlogs : Store.log? (c.session.call r).2.state = Store.log? c.session.state := by
      rcases op.opening_of_isReading hop hopening with ⟨log, offset, limit, rfl⟩ | ⟨log, rfl⟩
      · exact Store.log?_read log offset limit c.session.state
      · exact Store.log?_count log c.session.state
    have hbehind : Holds h records { c with session := (c.session.call r).2 } :=
      ⟨hc.connected, hc.sizes, (congrFun hlogs h.id).trans hc.log⟩
    rw [run_request_bind_of_connected hc.connected] at hrun
    rw [Client.perform, hrun]
    -- The request has looked at the log, and nothing is asked of the store behind it.
    rcases hcall : c.session.call r with ⟨fault | a, session⟩
    · rw [hcall] at hbehind
      exact hbehind
    · rw [hcall] at hbehind
      have hquiet := Operation.quiet_of_isReading hop (hnext a { c with session } hc.connected)
      dsimp only
      rw [hquiet]
      exact hbehind

theorem after (hc : Holds h records c) {ops : List Operation}
    (hops : ∀ op ∈ ops, op.isReading = true) : Holds h records (c.after ops) := by
  induction ops generalizing c with
  | nil => exact hc
  | cons op rest ih =>
    apply ih (hc.perform (hops op List.mem_cons_self))
    intro later hlater
    exact hops later (List.mem_cons_of_mem op hlater)

/-- Offsets of records can be exchanged as long as the log is not too large for that. -/
theorem end_le (hc : Holds h records c) (hk : k < records.length) :
    (k + 1) * h.schema.recordSize ≤ records.flatten.length := by
  rw [hc.length_flatten]
  exact Nat.mul_le_mul_right _ hk

theorem exists_run_readBytes (hc : Holds h records c) (hsmall : records.flatten.length < 2 ^ 63)
    (hk : k < records.length) (hoffset : offset.toNat = k * h.schema.recordSize)
    (limit : UInt64) :
    ∃ d, (readBytes h offset limit).run c =
      (.ok ((records.drop k).take limit.toNat).flatten, d) := by
  have hend := hc.end_le hk
  rw [Nat.succ_mul] at hend
  have hpos := h.schema.recordSize_pos
  have hlt : offset.toNat < 2 ^ 63 := by omega
  have hwire : wireOffset offset = .ok (Int64.ofNat offset.toNat) := if_pos hlt
  have hwithin : (Int64.ofNat offset.toNat).toInt.toNat < records.flatten.length := by
    rw [toNat_ofNat_of_small hlt]
    omega
  have hslice : StoredLog.slice ⟨h.schema.recordSize, records.flatten⟩
      (Int64.ofNat offset.toNat).toInt.toNat limit.toNat =
        ((records.drop k).take limit.toNat).flatten := by
    have hrest : ∀ record ∈ records.drop k, record.length = h.schema.recordSize :=
      fun record hrecord => hc.sizes record (List.mem_of_mem_drop hrecord)
    rw [StoredLog.slice, toNat_ofNat_of_small hlt, hoffset, Schema.drop_flatten hc.sizes,
      Schema.take_flatten hrest]
  have hanswer : (Service.answer (.read h.id (Int64.ofNat offset.toNat) limit) c.session.state).1 =
      .ok ((records.drop k).take limit.toNat).flatten := by
    rw [← hslice]
    exact Store.read_of_lt hc.log (ofNat_nonneg_of_small hlt) hwithin
  exact ⟨_, (run_readBytes_of_connected hc.connected hwire).trans (Prod.ext hanswer rfl)⟩

theorem exists_run_readBytes_one (hc : Holds h records c) (hsmall : records.flatten.length < 2 ^ 63)
    (hk : k < records.length) (hoffset : offset.toNat = k * h.schema.recordSize) :
    ∃ d, (readBytes h offset 1).run c = (.ok records[k], d) := by
  obtain ⟨d, hrun⟩ := hc.exists_run_readBytes hsmall hk hoffset 1
  have hone : (records.drop k).take (1 : UInt64).toNat = [records[k]] := by
    rw [List.drop_eq_getElem_cons hk]
    rfl
  rw [hone, List.flatten_singleton] at hrun
  exact ⟨d, hrun⟩

theorem exists_run_readBytes_past (hc : Holds h records c)
    (hpast : records.flatten.length ≤ offset.toNat) (limit : UInt64) :
    ∃ fault d, (readBytes h offset limit).run c = (.error fault, d) := by
  by_cases hlt : offset.toNat < 2 ^ 63
  · have hwire : wireOffset offset = .ok (Int64.ofNat offset.toNat) := if_pos hlt
    have hend : records.flatten.length ≤ (Int64.ofNat offset.toNat).toInt.toNat := by
      rw [toNat_ofNat_of_small hlt]
      exact hpast
    obtain ⟨fault, hfault⟩ : ∃ fault, (Service.answer
        (.read h.id (Int64.ofNat offset.toNat) limit) c.session.state).1 = .error fault :=
      Store.read_of_le hc.log (ofNat_nonneg_of_small hlt) hend
    exact ⟨fault, _, (run_readBytes_of_connected hc.connected hwire).trans (Prod.ext hfault rfl)⟩
  · have hwire : wireOffset offset = .error (.argument (.offset offset)) := if_neg hlt
    refine ⟨.argument (.offset offset), c, ?_⟩
    rw [run_readBytes, if_pos hc.connected, hwire]
    rfl

theorem standsAt (hc : Holds h records c) (hsmall : records.flatten.length < 2 ^ 63) {r : Record}
    (hschema : r.schema = h.schema) (hdata : records[k]? = some r.data)
    (hoffset : r.offset = some offset) (hplace : offset.toNat = k * h.schema.recordSize) :
    r.StandsAt h.schema records k where
  schema := hschema
  data := hdata
  offset := by rw [hoffset, Option.map_some, hplace]
  version := by
    have hend := hc.end_le (List.getElem?_eq_some_iff.mp hdata).1
    have hsize : r.data.length = h.schema.recordSize := hschema ▸ r.size_eq
    have hword : (k + 1) * h.schema.recordSize < UInt64.size :=
      lt_size_of_small (Nat.lt_of_le_of_lt hend hsmall)
    rw [Nat.succ_mul] at hword
    rw [Record.version, hoffset, Option.map_some, Option.map_some, hsize, UInt64.toNat_add, hplace,
      UInt64.toNat_ofNat_of_lt' (by omega), Nat.mod_eq_of_lt hword, Nat.succ_mul]

theorem exists_run_count (hc : Holds h records c) (hsmall : records.flatten.length < 2 ^ 63) :
    ∃ n, ((count h).run c).1 = .ok n ∧ n.toNat = records.length := by
  have hpos := h.schema.recordSize_pos
  have hcount : records.length < 2 ^ 63 := by
    apply Nat.lt_of_le_of_lt _ hsmall
    rw [hc.length_flatten]
    exact Nat.le_mul_of_pos_right _ hpos
  have hanswer : (Service.answer (.count h.id) c.session.state).1 =
      .ok (Int64.ofNat records.length) := by
    have hlog := Store.count_eq hc.log
    rw [hc.length_flatten, Nat.mul_div_cancel _ hpos] at hlog
    exact hlog
  have hasked : (request (.count h.id)).run c =
      (.ok (Int64.ofNat records.length),
        { c with session := (c.session.call (.count h.id)).2 }) :=
    (run_request_of_connected hc.connected _).trans (Prod.ext hanswer rfl)
  have hnonneg : ¬ Int64.ofNat records.length < 0 :=
    Int64.not_lt.mpr (ofNat_nonneg_of_small hcount)
  refine ⟨UInt64.ofNat records.length, ?_, UInt64.toNat_ofNat_of_lt' (lt_size_of_small hcount)⟩
  rw [count, run_bind, hasked]
  dsimp only
  rw [if_neg hnonneg, toNat_ofNat_of_small hcount]
  rfl

/-- Several records are read at once as they stand in the log, or as many as there are. -/
theorem exists_run_readMany (hc : Holds h records c) (hsmall : records.flatten.length < 2 ^ 63)
    (hk : k < records.length) (hoffset : offset.toNat = k * h.schema.recordSize)
    (limit : UInt64) :
    ∃ read, ((readMany h offset limit).run c).1 = .ok read ∧
      read.length = min limit.toNat (records.length - k) ∧
        ∀ i (r : Record), read[i]? = some r → r.StandsAt h.schema records (k + i) := by
  obtain ⟨d, hrun⟩ := hc.exists_run_readBytes hsmall hk hoffset limit
  have hsizes : ∀ record ∈ (records.drop k).take limit.toNat,
      record.length = h.schema.recordSize := fun record hrecord =>
    hc.sizes record (List.mem_of_mem_drop (List.mem_of_mem_take hrecord))
  obtain ⟨read, hread, hdata, hplaces⟩ := Client.exists_run_readMany hsizes hrun
  refine ⟨read, congrArg Prod.fst hread, ?_, ?_⟩
  · rw [← List.length_map, hdata, List.length_take, List.length_drop]
  · intro i r hr
    obtain ⟨hschema, hplace⟩ := hplaces i r hr
    have hpiece : ((records.drop k).take limit.toNat)[i]? = some r.data := by
      rw [← hdata, List.getElem?_map, hr, Option.map_some]
    rw [List.getElem?_take] at hpiece
    split at hpiece
    · rw [List.getElem?_drop] at hpiece
      have hend := hc.end_le (List.getElem?_eq_some_iff.mp hpiece).1
      apply hc.standsAt hsmall hschema hpiece hplace
      rw [Nat.succ_mul, Nat.add_mul] at hend
      have hstep : i * h.schema.recordSize < UInt64.size := lt_size_of_small (by omega)
      have hsum : k * h.schema.recordSize + i * h.schema.recordSize < UInt64.size :=
        lt_size_of_small (by omega)
      rw [UInt64.toNat_add, UInt64.toNat_ofNat_of_lt' hstep, hoffset, Nat.mod_eq_of_lt hsum,
        Nat.add_mul]
    · cases hpiece

end Client.Holds

/-- A client that created a log and then appended to it finds the number of records that it sent,
and at the place of each of them, which is the offset that was returned if it was the first of an
append, the record as it was sent. Several records are found as they were sent one behind the
other, and behind the last there is nothing to be read. -/
theorem Client.appended_are_read {σ : Type} [Store σ] {name : String} {schema : Schema}
    {c c₀ d : Client σ} {h : Handle} {appends : List Appending} {offsets : List UInt64}
    (hcreate : (create name schema).run c = (.ok h, c₀))
    (happends : (appends.mapM (Appending.act h)).run c₀ = (.ok offsets, d))
    (hsmall : (appends.flatMap (·.sent schema)).flatten.length < 2 ^ 63)
    (reads : List Operation) (hreads : ∀ op ∈ reads, op.isReading = true) :
    let sent := appends.flatMap (·.sent schema)
    let e := d.after reads
    (∃ n, ((count h).run e).1 = .ok n ∧ n.toNat = sent.length) ∧
      offsets.length = appends.length ∧
      (∀ i offset, offsets[i]? = some offset →
        offset.toNat = ((appends.take i).flatMap (·.sent schema)).length * schema.recordSize) ∧
      (∀ k data, sent[k]? = some data →
        ∀ offset, offset.toNat = k * schema.recordSize →
          ((readPacked h offset).run e).1 = .ok data ∧
          (∃ r, ((read h offset).run e).1 = .ok r ∧ r.StandsAt schema sent k) ∧
          ∀ limit, ∃ records, ((readMany h offset limit).run e).1 = .ok records ∧
            records.length = min limit.toNat (sent.length - k) ∧
              ∀ i (r : Record), records[i]? = some r → r.StandsAt schema sent (k + i)) ∧
      ∀ offset, sent.length * schema.recordSize ≤ offset.toNat →
        (∃ fault, ((read h offset).run e).1 = .error fault) ∧
        ∀ limit, ∃ fault, ((readMany h offset limit).run e).1 = .error fault := by
  intro sent e
  obtain ⟨rfl, hempty⟩ := holds_of_create hcreate
  obtain ⟨hheld, hlength, hplaces⟩ := hempty.appendAll hsmall happends
  have hholds : Holds h sent e := hheld.after hreads
  refine ⟨hholds.exists_run_count hsmall, hlength, hplaces, ?_, ?_⟩
  · intro k data hdata offset hoffset
    obtain ⟨hk, rfl⟩ := List.getElem?_eq_some_iff.mp hdata
    have hsize := hholds.sizes _ (List.getElem_mem hk)
    obtain ⟨d, hrun⟩ := hholds.exists_run_readBytes_one hsmall hk hoffset
    refine ⟨congrArg Prod.fst (run_readPacked hsize hrun), ?_,
      hholds.exists_run_readMany hsmall hk hoffset⟩
    exact ⟨_, congrArg Prod.fst (run_read hsize hrun),
      hholds.standsAt hsmall rfl hdata rfl hoffset⟩
  · intro offset hpast
    rw [← hholds.length_flatten] at hpast
    constructor
    · obtain ⟨fault, d, hrun⟩ := hholds.exists_run_readBytes_past hpast 1
      refine ⟨fault, ?_⟩
      rw [read, run_bind, readPacked, run_bind, hrun]
    · intro limit
      obtain ⟨fault, d, hrun⟩ := hholds.exists_run_readBytes_past hpast limit
      refine ⟨fault, ?_⟩
      rw [readMany, run_bind, hrun]

/-- A record that is packed already, one of values, one of texts, and two that share a block. -/
theorem Client.appended_are_read_of_each_form :
    let s : Schema := ⟨.timestamp, [⟨1, 8, .integer .short, "V", none, by decide⟩],
      rfl, rfl, ⟨rfl, rfl, rfl, rfl, trivial⟩⟩
    let appends : List Appending := [.packed [1, 0, 0, 0, 0, 0, 0, 0, 7, 0],
      .values 2 [.integer .int ⟨-1, by decide⟩], .texts 3 ["5"],
      .batch ⟨2, [⟨0, [4, 0, 0, 0, 0, 0, 0, 0, 8, 0, 5, 0, 0, 0, 0, 0, 0, 0, 9, 0], 2⟩]⟩]
    let c : Client Shelf := ⟨{}, true, ⟨⟨fun _ => none, 0⟩, []⟩⟩
    let h : Handle := ⟨0, "log", s⟩
    ∃ c₀ d : Client Shelf, (create "log" s).run c = (.ok h, c₀) ∧
      (appends.mapM (Appending.act h)).run c₀ = (.ok [0, 10, 20, 30], d) ∧
      (∃ n, ((count h).run d).1 = .ok n ∧ n.toNat = 5) ∧
      (∃ r, ((read h 40).run d).1 = .ok r ∧ r.data = [5, 0, 0, 0, 0, 0, 0, 0, 9, 0]) ∧
      ∃ records, ((readMany h 10 10).run d).1 = .ok records ∧ records.length = 4 := by
  intro s appends c h
  let c₀ : Client Shelf := ((create "log" s).run c).2
  have hcreate : (create "log" s).run c = (.ok h, c₀) := rfl
  have happends : (appends.mapM (Appending.act h)).run c₀ =
      (.ok [0, 10, 20, 30], ((appends.mapM (Appending.act h)).run c₀).2) :=
    Prod.ext rfl rfl
  have hsent : appends.flatMap (·.sent s) = [[1, 0, 0, 0, 0, 0, 0, 0, 7, 0],
      [2, 0, 0, 0, 0, 0, 0, 0, 255, 255], [3, 0, 0, 0, 0, 0, 0, 0, 5, 0],
      [4, 0, 0, 0, 0, 0, 0, 0, 8, 0], [5, 0, 0, 0, 0, 0, 0, 0, 9, 0]] := by decide
  have hback := appended_are_read hcreate happends (by rw [hsent]; decide) []
    (fun _ hop => absurd hop List.not_mem_nil)
  rw [hsent] at hback
  obtain ⟨hcount, -, -, hread, -⟩ := hback
  refine ⟨c₀, _, hcreate, happends, hcount, ?_, ?_⟩
  · obtain ⟨-, ⟨r, hr, hplace⟩, -⟩ := hread 4 _ rfl 40 rfl
    exact ⟨r, hr, Option.some.inj hplace.data.symm⟩
  · obtain ⟨-, -, hmany⟩ := hread 1 _ rfl 10 rfl
    obtain ⟨records, hrecords, hlength, -⟩ := hmany 10
    exact ⟨records, hrecords, hlength⟩

end RecordLog
