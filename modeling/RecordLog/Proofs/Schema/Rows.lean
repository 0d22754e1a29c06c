import RecordLog.Proofs.Schema.Unpacking

/-!
# Rows of values and rows of texts

A row has an entry for each column, or for each but the timestamp. Which columns it is for is told
by its length, and this is the same for values and for texts: a row of texts is packed as the row of
the values that its columns read.
-/

namespace RecordLog

variable {columns : List Column} {values : List Value} {texts : List String} {data : Bytes}

theorem readColumns_cons {c : Column} {s : String} {decoded : List Value}
    (h : readColumns (c :: columns) (s :: texts) = .ok decoded) :
    ∃ v rest, c.type.readValue s = .ok v ∧ readColumns columns texts = .ok rest ∧
      decoded = v :: rest := by
  rw [readColumns] at h
  split at h
  · cases h
  · next v hv =>
    cases hrest : readColumns columns texts with
    | error cause =>
      rw [hrest] at h
      cases h
    | ok rest =>
      rw [hrest] at h
      exact ⟨v, rest, hv, rfl, (Except.ok.inj h).symm⟩

namespace Schema

variable {s : Schema} {now : UInt64}

theorem columnsFor?_others (s : Schema) : s.columnsFor? s.others.length = some s.others := by
  have hmore : ¬ s.others.length = s.columns.length := (Nat.lt_succ_self _).ne
  rw [columnsFor?, if_neg hmore, if_pos rfl]

theorem columnsFor?_columns (s : Schema) : s.columnsFor? s.columns.length = some s.columns :=
  if_pos rfl

theorem columnsFor?_eq_some {given : Nat} (h : s.columnsFor? given = some columns) :
    columns.length = given ∧ (columns = s.columns ∨ columns = s.others) := by
  unfold columnsFor? at h
  split at h
  · next heq =>
    obtain rfl := Option.some.inj h
    exact ⟨heq.symm, .inl rfl⟩
  · split at h
    · next heq =>
      obtain rfl := Option.some.inj h
      exact ⟨heq.symm, .inr rfl⟩
    · cases h

/-- What stands in a record for a timestamp that the row leaves out. -/
def stampFor (s : Schema) (now : UInt64) (columns : List Column) : Bytes :=
  if columns = s.others then Bytes.ofWord timestampSize now.toNat else []

/-- A row that is packed has an entry for each column, but for the timestamp maybe, and what its
entries are packed as stands behind the timestamp. -/
theorem pack_eq_ok_iff : s.pack now values = .ok data ↔
    ∃ columns fields, s.columnsFor? values.length = some columns ∧
      packColumns columns values = .ok fields ∧ data = s.stampFor now columns ++ fields := by
  have hmore : s.columns.length = s.others.length + 1 := rfl
  have hne : s.columns ≠ s.others := by
    intro heq
    rw [heq] at hmore
    omega
  constructor
  · intro h
    by_cases hfull : values.length = s.columns.length
    · refine ⟨s.columns, data, ?_, packColumns_of_pack hfull h, ?_⟩
      · rw [hfull, columnsFor?_columns]
      · rw [stampFor, if_neg hne, List.nil_append]
    · unfold pack at h
      split at h
      · next hrest =>
        obtain ⟨fields, hfields, rfl⟩ := append_eq_ok h
        refine ⟨s.others, fields, ?_, hfields, ?_⟩
        · rw [hrest, columnsFor?_others]
        · rw [stampFor, if_pos rfl]
      · split at h
        · cases h
        · split at h
          · next hrest =>
            rw [List.length_cons, hrest] at hfull
            exact absurd rfl hfull
          · cases h
  · rintro ⟨columns, fields, hcolumns, hfields, rfl⟩
    obtain ⟨hlength, rfl | rfl⟩ := columnsFor?_eq_some hcolumns
    · rw [stampFor, if_neg hne, List.nil_append]
      exact pack_of_packColumns hlength.symm hfields
    · rw [stampFor, if_pos rfl]
      unfold pack
      rw [if_pos hlength.symm, hfields]
      rfl

/-- A row of texts is packed as the row of the values that they are read as. -/
theorem packTexts_eq_ok_iff : s.packTexts now texts = .ok data ↔
    ∃ columns values, s.columnsFor? texts.length = some columns ∧
      readColumns columns texts = .ok values ∧ s.pack now values = .ok data := by
  unfold packTexts
  cases s.columnsFor? texts.length with
  | none => simp
  | some columns =>
    cases hread : readColumns columns texts with
    | error cause => simp [hread]
    | ok values => simp [hread]

end Schema

end RecordLog
