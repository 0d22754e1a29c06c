import RecordLog.Proofs.Schema.Rows
import RecordLog.Proofs.Types.Acceptance
import RecordLog.Proofs.Types.FloatTexts

/-!
# Rows of texts are read, then packed

A row of texts is taken in two steps: each column reads its text, from the first on, and the values
are packed. Only the first step can fail, since a type takes all values that it reads. So a row is
refused for its length, or for the first text that its column cannot read, and the fault names that
column.
-/

namespace RecordLog

namespace DataType

/-- Whether a text stands for a value of the type. -/
def Reads (t : DataType) (text : String) : Prop := ∃ v, t.readValue text = .ok v

/-- A type takes the values that it reads. -/
theorem takes_of_readValue {t : DataType} {text : String} {v : Value}
    (h : t.readValue text = .ok v) : t.Takes v := by
  cases t with
  | none => cases h
  | bool =>
    simp only [readValue] at h
    split at h
    · next b hb =>
      obtain rfl := Except.ok.inj h
      exact .bool b
    · cases h
  | integer kind =>
    simp only [readValue] at h
    cases hread : readNumber kind (Text.trim text) with
    | error cause =>
      rw [hread] at h
      cases h
    | ok n =>
      rw [hread] at h
      obtain rfl := Except.ok.inj h
      exact .integer n.holds
  | float =>
    obtain ⟨x, rfl, -⟩ := (FloatKind.readValue_eq_ok_iff (k := .single)).mp h
    have hpack : float.pack (.float x) = .ok (packBinary x) := rfl
    exact takes_of_pack hpack
  | double =>
    obtain ⟨x, rfl, -⟩ := (FloatKind.readValue_eq_ok_iff (k := .double)).mp h
    exact .double trivial
  | string width =>
    simp only [readValue] at h
    split at h
    · next hle =>
      obtain rfl := Except.ok.inj h
      exact .string hle
    · cases h

end DataType

/-! ## Rows -/

/-- Whether values are what texts are read as, each by its column. -/
def ReadsRow (columns : List Column) (texts : List String) (values : List Value) : Prop :=
  List.Forall₂ (fun (c, text) v => c.type.readValue text = .ok v) (columns.zip texts) values

/-- Whether fields are what values are packed as, each by its column. -/
def PacksRow (columns : List Column) (values : List Value) (fields : List Bytes) : Prop :=
  List.Forall₂ (fun (c, v) field => c.type.pack v = .ok field) (columns.zip values) fields

variable {columns : List Column} {texts : List String} {values : List Value}

/-- The columns read their texts if each of them can. -/
theorem exists_readsRow (h : ∀ p ∈ columns.zip texts, p.1.type.Reads p.2) :
    ∃ values, ReadsRow columns texts values ∧ readColumns columns texts = .ok values := by
  induction columns generalizing texts with
  | nil => exact ⟨[], .nil, rfl⟩
  | cons c columns ih =>
    cases texts with
    | nil => exact ⟨[], .nil, rfl⟩
    | cons text texts =>
      obtain ⟨⟨v, hv⟩, hrest⟩ := List.forall_mem_cons.mp h
      obtain ⟨values, hreads, hread⟩ := ih hrest
      refine ⟨v :: values, .cons hv hreads, ?_⟩
      rw [readColumns, hv, hread]
      rfl

/-- The first text that its column cannot read is what the row is refused for. -/
theorem readColumns_eq_error {front behind : List (Column × String)} {c : Column} {text : String}
    {cause : EncodingFault} (hrow : columns.zip texts = front ++ (c, text) :: behind)
    (hfront : ∀ p ∈ front, p.1.type.Reads p.2) (h : c.type.readValue text = .error cause) :
    readColumns columns texts = .error (.column c.name cause) := by
  induction front generalizing columns texts with
  | nil =>
    obtain ⟨columns, texts, rfl, rfl, -⟩ := List.zip_eq_cons_iff.mp hrow
    rw [readColumns, h]
  | cons p front ih =>
    obtain ⟨columns, texts, rfl, rfl, hrest⟩ := List.zip_eq_cons_iff.mp hrow
    obtain ⟨⟨v, hv⟩, hbehind⟩ := List.forall_mem_cons.mp hfront
    rw [readColumns, hv, ih hrest.symm hbehind]
    rfl

/-- Pairs of columns and texts are all read, or one of them is the first that is not. -/
theorem all_read_or_first_refused (row : List (Column × String)) :
    (∀ p ∈ row, p.1.type.Reads p.2) ∨
      ∃ front c text behind cause, row = front ++ (c, text) :: behind ∧
        (∀ p ∈ front, p.1.type.Reads p.2) ∧ c.type.readValue text = .error cause := by
  induction row with
  | nil =>
    left
    intro p hp
    cases hp
  | cons p rest ih =>
    obtain ⟨c, text⟩ := p
    cases hread : c.type.readValue text with
    | error cause =>
      right
      exact ⟨[], c, text, rest, cause, rfl, fun p hp => absurd hp List.not_mem_nil, hread⟩
    | ok v =>
      have hfirst : c.type.Reads text := ⟨v, hread⟩
      rcases ih with hall | ⟨front, d, other, behind, cause, rfl, hfront, hother⟩
      · left
        exact List.forall_mem_cons.mpr ⟨hfirst, hall⟩
      · right
        exact ⟨(c, text) :: front, d, other, behind, cause, rfl,
          List.forall_mem_cons.mpr ⟨hfirst, hfront⟩, hother⟩

/-- Values that are read can be packed. -/
theorem exists_packsRow (hlength : texts.length = columns.length)
    (h : ReadsRow columns texts values) :
    ∃ fields, PacksRow columns values fields ∧ packColumns columns values = .ok fields.flatten := by
  induction columns generalizing texts values with
  | nil =>
    obtain rfl := List.eq_nil_of_length_eq_zero hlength
    cases h
    exact ⟨[], .nil, rfl⟩
  | cons c columns ih =>
    obtain ⟨text, texts, rfl⟩ := List.exists_cons_of_length_eq_add_one hlength
    cases h with
    | cons hread hrest =>
      obtain ⟨field, hfield⟩ := (DataType.takes_of_readValue hread).exists_pack
      obtain ⟨fields, hfields, hpacked⟩ := ih (Nat.succ.inj hlength) hrest
      refine ⟨field :: fields, .cons hfield hfields, ?_⟩
      rw [packColumns, hfield, hpacked]
      rfl

namespace Schema

variable {s : Schema} {now : UInt64} {stamp : Bytes} {given : Nat}

/-- Which columns a row is for by its length, and what its record has in front of their fields: the
current time, if the row leaves the timestamp out. -/
inductive RowFor (s : Schema) (now : UInt64) (given : Nat) : List Column → Bytes → Prop where
  | full (h : given = s.columns.length) : RowFor s now given s.columns []
  | unstamped (h : given + 1 = s.columns.length) :
      RowFor s now given s.others (Bytes.ofWord timestampSize now.toNat)

theorem RowFor.not_wrongArity (h : s.RowFor now given columns stamp) :
    ¬ (given ≠ s.columns.length ∧ given + 1 ≠ s.columns.length) := by
  rintro ⟨hfull, hshort⟩
  cases h with
  | full h => exact hfull h
  | unstamped h => exact hshort h

theorem RowFor.columnsFor? (h : s.RowFor now given columns stamp) :
    s.columnsFor? given = some columns ∧ stamp = s.stampFor now columns ∧
      given = columns.length := by
  have hmore : s.columns.length = s.others.length + 1 := rfl
  cases h with
  | full h =>
    have hne : s.columns ≠ s.others := fun heq => by
      rw [heq] at hmore
      omega
    exact ⟨h ▸ columnsFor?_columns s, (if_neg hne).symm, h⟩
  | unstamped h =>
    have hothers : given = s.others.length := by omega
    exact ⟨hothers ▸ columnsFor?_others s, (if_pos rfl).symm, hothers⟩

/-- A row of the right length is packed if its texts are read. -/
theorem exists_packTexts (hrow : s.RowFor now texts.length columns stamp)
    (h : ∀ p ∈ columns.zip texts, p.1.type.Reads p.2) :
    ∃ values fields, ReadsRow columns texts values ∧ PacksRow columns values fields ∧
      s.pack now values = .ok (stamp ++ fields.flatten) ∧
      s.packTexts now texts = .ok (stamp ++ fields.flatten) := by
  obtain ⟨hcolumns, rfl, hlength⟩ := hrow.columnsFor?
  obtain ⟨values, hreads, hread⟩ := exists_readsRow h
  obtain ⟨fields, hpacks, hpacked⟩ := exists_packsRow hlength hreads
  have hvalues : values.length = texts.length := by
    rw [← hreads.length_eq, List.length_zip, hlength, Nat.min_self]
  have hpack : s.pack now values = .ok (s.stampFor now columns ++ fields.flatten) :=
    pack_eq_ok_iff.mpr ⟨columns, _, hvalues ▸ hcolumns, hpacked, rfl⟩
  refine ⟨values, fields, hreads, hpacks, hpack, ?_⟩
  exact packTexts_eq_ok_iff.mpr ⟨columns, values, hcolumns, hread, hpack⟩

/-- A row of the right length is refused for the first text that its column cannot read. -/
theorem packTexts_eq_error (hrow : s.RowFor now texts.length columns stamp)
    {front behind : List (Column × String)} {c : Column} {text : String} {cause : EncodingFault}
    (hsplit : columns.zip texts = front ++ (c, text) :: behind)
    (hfront : ∀ p ∈ front, p.1.type.Reads p.2) (h : c.type.readValue text = .error cause) :
    s.packTexts now texts = .error (.encoding (.column c.name cause)) := by
  simp only [packTexts, hrow.columnsFor?.1, readColumns_eq_error hsplit hfront h]

theorem reads_of_packTexts (hrow : s.RowFor now texts.length columns stamp) {data : Bytes}
    (h : s.packTexts now texts = .ok data) : ∀ p ∈ columns.zip texts, p.1.type.Reads p.2 := by
  rcases all_read_or_first_refused (columns.zip texts) with
    hall | ⟨front, c, text, behind, cause, hsplit, hfront, hcause⟩
  · exact hall
  · cases (packTexts_eq_error hrow hsplit hfront hcause).symm.trans h

/-- What is wrong with a row of the right length is a text in it. -/
theorem not_schema_of_rowFor (hrow : s.RowFor now texts.length columns stamp) :
    ¬ ∃ cause, s.packTexts now texts = .error (.schema cause) := by
  rintro ⟨cause, h⟩
  rcases all_read_or_first_refused (columns.zip texts) with
    hall | ⟨front, c, text, behind, refusal, hsplit, hfront, hrefusal⟩
  · obtain ⟨values, fields, -, -, -, hpacked⟩ := exists_packTexts hrow hall
    cases hpacked.symm.trans h
  · cases (packTexts_eq_error hrow hsplit hfront hrefusal).symm.trans h

theorem rowFor_or_wrongArity (s : Schema) (now : UInt64) (texts : List String) :
    (∃ columns stamp, s.RowFor now texts.length columns stamp) ∨
      (texts.length ≠ s.columns.length ∧ texts.length + 1 ≠ s.columns.length) ∧
        s.packTexts now texts = .error (s.wrongArity texts.length) := by
  have hmore : s.columns.length = s.others.length + 1 := rfl
  by_cases hfull : texts.length = s.columns.length
  · exact .inl ⟨_, _, .full hfull⟩
  by_cases hshort : texts.length + 1 = s.columns.length
  · exact .inl ⟨_, _, .unstamped hshort⟩
  right
  have hnone : s.columnsFor? texts.length = none := by
    rw [Schema.columnsFor?, if_neg hfull, if_neg (by omega)]
  refine ⟨⟨hfull, hshort⟩, ?_⟩
  rw [packTexts, hnone]

/-- A type takes every value that it reads from a text. So a row of texts is refused for its length
just if this fits neither with the timestamp nor without, and any other row is packed just if each
column reads its text: as the row of the values that are read, which is the field of each behind the
timestamp. Otherwise it is refused for the first text that is not read, under the column's name. -/
theorem packTexts_reads_then_packs :
    (∀ (t : DataType) text v, t.readValue text = .ok v → ∃ field, t.pack v = .ok field) ∧
    ∀ (s : Schema) (now : UInt64) (texts : List String),
      ((∃ cause, s.packTexts now texts = .error (.schema cause)) ↔
        texts.length ≠ s.columns.length ∧ texts.length + 1 ≠ s.columns.length) ∧
      ∀ columns stamp, s.RowFor now texts.length columns stamp →
        ((∃ data, s.packTexts now texts = .ok data) ↔
          ∀ p ∈ columns.zip texts, p.1.type.Reads p.2) ∧
        (∀ data, s.packTexts now texts = .ok data → ∃ values fields,
          ReadsRow columns texts values ∧ s.pack now values = .ok data ∧
          PacksRow columns values fields ∧ data = stamp ++ fields.flatten) ∧
        ∀ front (c : Column) text behind cause, columns.zip texts = front ++ (c, text) :: behind →
          (∀ p ∈ front, p.1.type.Reads p.2) → c.type.readValue text = .error cause →
          ∃ fault, s.packTexts now texts = .error fault ∧ fault = .encoding (.column c.name cause) ∧
            fault.message = "Encoding error: column " ++ c.name ++ ": " ++ cause.message := by
  refine ⟨fun t text v h => (DataType.takes_of_readValue h).exists_pack, ?_⟩
  intro s now texts
  constructor
  · rcases s.rowFor_or_wrongArity now texts with ⟨columns, stamp, hrow⟩ | ⟨hlength, harity⟩
    · exact iff_of_false (not_schema_of_rowFor hrow) hrow.not_wrongArity
    · exact iff_of_true ⟨_, harity⟩ hlength
  · intro columns stamp hrow
    refine ⟨⟨?_, ?_⟩, ?_, ?_⟩
    · rintro ⟨data, h⟩
      exact reads_of_packTexts hrow h
    · intro hall
      obtain ⟨values, fields, -, -, -, hpacked⟩ := exists_packTexts hrow hall
      exact ⟨_, hpacked⟩
    · intro data h
      obtain ⟨values, fields, hreads, hpacks, hpack, hpacked⟩ :=
        exists_packTexts hrow (reads_of_packTexts hrow h)
      obtain rfl := Except.ok.inj (hpacked.symm.trans h)
      exact ⟨values, fields, hreads, hpack, hpacks, rfl⟩
    · intro front c text behind cause hsplit hfront hcause
      exact ⟨_, packTexts_eq_error hrow hsplit hfront hcause, rfl, rfl⟩

/-- Infinity is read and packed. A row is packed behind the current time, one is refused for the
first of two texts that are not read, and one for its length. -/
theorem packTexts_reads_then_packs_of_each_outcome :
    let s : Schema := ⟨.timestamp,
      [⟨1, 8, .integer .short, "LEVEL", none, by decide⟩,
        ⟨2, 10, .string ⟨4, by decide, by decide⟩, "HOST", none, by decide⟩],
      rfl, rfl, by repeat' constructor⟩
    (∃ field, DataType.float.pack (.float (.ofRank .single false 0x7F800000)) = .ok field) ∧
    (∃ values fields, ReadsRow s.others ["-2", "hi"] values ∧ PacksRow s.others values fields ∧
      [7, 0, 0, 0, 0, 0, 0, 0, 254, 255, 104, 105, 0, 0] =
        Bytes.ofWord timestampSize 7 ++ fields.flatten) ∧
    (∃ fault, s.packTexts 7 ["9", "2x", "too long"] = .error fault ∧
      fault.message = "Encoding error: column " ++ "LEVEL" ++ ": " ++
        EncodingFault.message (.notInteger "2x" (.integer .short) .invalidDigit)) ∧
    ∃ cause, s.packTexts 7 ["9"] = .error (.schema cause) := by
  intro s
  obtain ⟨htakes, hrows⟩ := packTexts_reads_then_packs
  refine ⟨?_, ?_, ?_, ?_⟩
  · exact htakes _ "inf" _ (by decide)
  · obtain ⟨-, hrow⟩ := hrows s 7 ["-2", "hi"]
    obtain ⟨-, hpacked, -⟩ := hrow s.others _ (.unstamped rfl)
    have hpack : s.packTexts 7 ["-2", "hi"] =
        .ok [7, 0, 0, 0, 0, 0, 0, 0, 254, 255, 104, 105, 0, 0] := by decide
    obtain ⟨values, fields, hreads, -, hpacks, hdata⟩ := hpacked _ hpack
    exact ⟨values, fields, hreads, hpacks, hdata⟩
  · obtain ⟨-, hrow⟩ := hrows s 7 ["9", "2x", "too long"]
    obtain ⟨-, -, hrefused⟩ := hrow s.columns _ (.full rfl)
    have hstamp : ∀ p ∈ [((.timestamp, "9") : Column × String)], p.1.type.Reads p.2 := by
      intro p hp
      rw [List.mem_singleton.mp hp]
      exact ⟨.integer .ulong ⟨9, by decide⟩, by decide⟩
    obtain ⟨fault, hfault, -, hmessage⟩ := hrefused [(.timestamp, "9")] _ "2x" _
      (.notInteger "2x" (.integer .short) .invalidDigit) rfl hstamp (by decide)
    exact ⟨fault, hfault, hmessage⟩
  · exact (hrows s 7 ["9"]).1.mpr ⟨by decide, by decide⟩

end Schema

end RecordLog
