import RecordLog.Proofs.Schema.Lookup
import RecordLog.Proofs.Schema.Packing

/-!
# Rows that builders make

A builder is asked for columns one by one, and grants or refuses each request. Whatever was asked
of it, its row begins with the timestamp, leaves no gaps and holds every column under a name of its
own; so it is accepted as a schema, and each of its columns is found by its name.
-/

namespace RecordLog

namespace Placed

variable {columns : List Column} {c : Column} {index offset : Nat}

/-- A column that is numbered and placed behind all others extends a row without a gap. -/
theorem append (h : Placed index offset columns) (hindex : c.index = index + columns.length)
    (hoffset : c.offset = offset + recordSize columns) : Placed index offset (columns ++ [c]) := by
  induction columns generalizing index offset with
  | nil => exact ⟨hindex, hoffset, trivial⟩
  | cons first rest ih =>
    obtain ⟨hfirst, hbegin, hrest⟩ := h
    rw [List.length_cons] at hindex
    rw [recordSize_cons] at hoffset
    exact ⟨hfirst, hbegin, ih hrest (by omega) (by omega)⟩

end Placed

/-- A request to a builder: a column of a type and a name, with or without bounds. -/
structure Addition where
  type : DataType
  name : String
  bounds : Option Bounds

/-- Whether the bounds, if there are any, are values of the type. -/
def Addition.BoundsFit (a : Addition) : Prop :=
  ∀ bounds ∈ a.bounds,
    (∃ field, a.type.pack bounds.min = .ok field) ∧ ∃ field, a.type.pack bounds.max = .ok field

/-- What a builder becomes by a request whose bounds fit. A request that names the timestamp adds
nothing, and has to give its type; any other adds a column, which has to have a type and a name
that is not taken. -/
inductive Added (b : Builder) (a : Addition) : Builder → Prop where
  | timestamp (hname : keptName a.name = timestampName) (htype : a.type = .timestamp) :
      Added b a b
  | column (hname : keptName a.name ≠ timestampName) (hnonempty : Text.trim a.name ≠ "")
      (hfree : ∀ c ∈ b.columns, Text.upper c.name ≠ keptName a.name) (htype : a.type ≠ .none) :
      Added b a ⟨b.columns ++ [b.next a.type (Text.trim a.name) a.bounds htype]⟩

theorem Added.type_ne_none {b grown : Builder} {a : Addition} (h : Added b a grown) :
    a.type ≠ .none := by
  cases h with
  | timestamp _ htype =>
    rw [htype]
    decide
  | column _ _ _ htype => exact htype

theorem mapError_eq_ok_iff {ε ε' α : Type} {f : ε → ε'} {x : Except ε α} {a : α} :
    x.mapError f = .ok a ↔ x = .ok a := by
  cases x <;> simp [Except.mapError]

namespace Builder

/-- What comes of a request. -/
def perform (b : Builder) (a : Addition) : Except Fault Builder :=
  match a.bounds with
  | none => (b.add a.type a.name).mapError .schema
  | some bounds => b.addBounded a.type a.name bounds

/-- The builder behind a request; one that is refused leaves it as it was. -/
def after (b : Builder) (a : Addition) : Builder := (b.perform a).toOption.getD b

def run (b : Builder) (additions : List Addition) : Builder := additions.foldl after b

variable {b grown : Builder} {a : Addition}

theorem has_eq_false_iff {name : String} :
    b.has name = false ↔ ∀ c ∈ b.columns, Text.upper c.name ≠ Text.upper name := by
  simp only [has, List.any_eq_false, decide_eq_true_eq]

theorem addTrimmed_eq_ok_iff :
    b.addTrimmed a.type (Text.trim a.name) a.bounds = .ok grown ↔ Added b a grown := by
  constructor
  · intro h
    unfold addTrimmed at h
    split at h
    · next hname =>
      split at h
      · next htype =>
        obtain rfl := Except.ok.inj h
        exact .timestamp hname htype
      · cases h
    · next hname =>
      split at h
      · cases h
      · next hnonempty =>
        split at h
        · cases h
        · next htype =>
          split at h
          · cases h
          · next hfree =>
            obtain rfl := Except.ok.inj h
            exact .column hname hnonempty (has_eq_false_iff.mp (Bool.eq_false_iff.mpr hfree)) htype
  · intro h
    unfold addTrimmed
    cases h with
    | timestamp hname htype => exact (if_pos hname).trans (if_pos htype)
    | column hname hnonempty hfree htype =>
      have hhas : b.has (Text.trim a.name) = false := has_eq_false_iff.mpr hfree
      refine (if_neg hname).trans ((if_neg hnonempty).trans ((dif_neg htype).trans ?_))
      exact if_neg (Bool.eq_false_iff.mp hhas)

theorem addBounded_eq_ok_iff {type : DataType} {name : String} {bounds : Bounds} :
    b.addBounded type name bounds = .ok grown ↔
      ((∃ field, type.pack bounds.min = .ok field) ∧ ∃ field, type.pack bounds.max = .ok field) ∧
        b.addTrimmed type (Text.trim name) (some bounds) = .ok grown := by
  rw [addBounded, ← mapError_eq_ok_iff (f := Fault.schema)]
  cases type.pack bounds.min with
  | error cause => simp [Except.mapError, bind, Except.bind]
  | ok low => cases type.pack bounds.max <;> simp [Except.mapError, bind, Except.bind]

/-- A request is granted just if its bounds fit and the column can be added. -/
theorem perform_eq_ok_iff : b.perform a = .ok grown ↔ a.BoundsFit ∧ Added b a grown := by
  rw [← addTrimmed_eq_ok_iff]
  obtain ⟨type, name, bounds⟩ := a
  cases bounds with
  | none =>
    have hfit : Addition.BoundsFit ⟨type, name, none⟩ := by simp [Addition.BoundsFit]
    simp only [perform, add, mapError_eq_ok_iff, and_iff_right hfit]
  | some bounds =>
    simp only [perform, addBounded_eq_ok_iff, Addition.BoundsFit, Option.mem_some_iff, forall_eq']

/-- A request has no effect, or the one that it is granted for. -/
theorem after_cases (b : Builder) (a : Addition) : b.after a = b ∨ Added b a (b.after a) := by
  cases h : b.perform a with
  | error fault =>
    left
    rw [after, h]
    rfl
  | ok grown =>
    right
    rw [after, h]
    exact (perform_eq_ok_iff.mp h).2

end Builder

/-- What holds of the row of every builder. -/
structure Built (columns : List Column) : Prop where
  first : columns.head? = some .timestamp
  placed : Placed 0 0 columns
  kept : ∀ c ∈ columns, keptName c.name = c.name ∧ c.name ≠ ""
  distinct : (columns.map Column.name).Nodup

namespace Built

variable {columns : List Column} {b grown : Builder} {a : Addition}

theorem start : Built Builder.start.columns where
  first := rfl
  placed := ⟨rfl, rfl, trivial⟩
  kept := by
    intro c hc
    obtain rfl := List.mem_singleton.mp hc
    exact ⟨by decide, by decide⟩
  distinct := List.nodup_singleton _

theorem upper_name (h : Built columns) {c : Column} (hc : c ∈ columns) :
    Text.upper c.name = c.name := upper_of_keptName (h.kept c hc).1

theorem trim_name (h : Built columns) {c : Column} (hc : c ∈ columns) :
    Text.trim c.name = c.name := by
  rw [← (h.kept c hc).1, keptName, Text.trim_upper, Text.trim_trim]

theorem added (h : Built b.columns) (hadded : Added b a grown) : Built grown.columns := by
  cases hadded with
  | timestamp => exact h
  | column hname hnonempty hfree htype =>
    have hkeep : (b.next a.type (Text.trim a.name) a.bounds htype).name = keptName a.name := rfl
    refine ⟨?_, ?_, ?_, ?_⟩
    · rw [List.head?_append, h.first]
      rfl
    · exact h.placed.append (Nat.zero_add _).symm (Nat.zero_add _).symm
    · intro c hc
      rcases List.mem_append.mp hc with hold | hnew
      · exact h.kept c hold
      · rw [List.mem_singleton.mp hnew, hkeep]
        exact ⟨keptName_keptName _, mt Text.upper_eq_empty_iff.mp hnonempty⟩
    · rw [List.map_append, List.nodup_append]
      refine ⟨h.distinct, List.nodup_singleton _, ?_⟩
      intro old hold new hnew
      obtain ⟨c, hc, rfl⟩ := List.mem_map.mp hold
      rw [List.mem_singleton.mp hnew, hkeep, ← h.upper_name hc]
      exact hfree c hc

theorem after (h : Built b.columns) (a : Addition) : Built (b.after a).columns := by
  rcases b.after_cases a with hsame | hadded
  · rw [hsame]
    exact h
  · exact h.added hadded

theorem run (h : Built b.columns) (additions : List Addition) :
    Built (b.run additions).columns := by
  induction additions generalizing b with
  | nil => exact h
  | cons a rest ih => exact ih (h.after a)

/-- The row of a builder is accepted as a schema. -/
theorem ofColumns (h : Built columns) :
    ∃ s, Schema.ofColumns columns = .ok s ∧ s.columns = columns := by
  obtain ⟨others, rfl⟩ := List.head?_eq_some_iff.mp h.first
  let s : Schema := ⟨.timestamp, others, rfl, rfl, h.placed⟩
  exact ⟨s, s.ofColumns_columns, rfl⟩

/-- A column is found by every spelling of its name, and by nothing else. -/
theorem column?_eq_some_iff {s : Schema} (h : Built s.columns) {name : String} {c : Column} :
    s.column? name = some c ↔ c ∈ s.columns ∧ c.name = keptName name := by
  rw [Schema.column?_eq_some_iff fun c hc => (h.kept c hc).1]
  constructor
  · rintro ⟨hfirst, hname⟩
    exact ⟨hfirst.1, hname⟩
  · rintro ⟨hc, hname⟩
    exact ⟨Schema.forall_isFirst_iff.mpr h.distinct c hc, hname⟩

end Built

namespace Builder

/-- Behind any requests, the next one is granted just if its bounds fit and it names the timestamp
with its type, or a column that has a type and a name that is not taken. The row begins with the
timestamp and has its columns numbered and placed one behind the other, each under a kept name of
its own. It is accepted as a schema, in which a name finds just the column that it is kept as. -/
theorem run_layout (additions : List Addition) :
    let b := start.run additions
    (∀ a grown, b.perform a = .ok grown ↔ a.BoundsFit ∧ Added b a grown) ∧
    (∃ others, b.columns = .timestamp :: others) ∧
    (∀ i c, b.columns[i]? = some c → c.index = i ∧ c.offset = recordSize (b.columns.take i)) ∧
    (∀ c ∈ b.columns,
      Text.trim c.name = c.name ∧ Text.upper c.name = c.name ∧ c.name ≠ "" ∧ 0 < c.type.size) ∧
    (b.columns.map Column.name).Nodup ∧
    ∃ s, Schema.ofColumns b.columns = .ok s ∧ s.columns = b.columns ∧
      s.recordSize = recordSize b.columns ∧
      (∀ name c, s.column? name = some c ↔ c ∈ b.columns ∧ c.name = keptName name) ∧
      ∀ c ∈ b.columns, s.column? c.name = some c := by
  intro b
  have h : Built b.columns := Built.start.run additions
  obtain ⟨s, hschema, hcolumns⟩ := h.ofColumns
  have hfind (name : String) (c : Column) :
      s.column? name = some c ↔ c ∈ b.columns ∧ c.name = keptName name := by
    rw [← hcolumns] at h ⊢
    exact h.column?_eq_some_iff
  refine ⟨fun a grown => perform_eq_ok_iff, List.head?_eq_some_iff.mp h.first, ?_, ?_, h.distinct,
    s, hschema, hcolumns, congrArg RecordLog.recordSize hcolumns, hfind, ?_⟩
  · intro i c hc
    have hplace := h.placed.getElem? hc
    simp only [Nat.zero_add] at hplace
    exact hplace
  · intro c hc
    exact ⟨h.trim_name hc, h.upper_name hc, (h.kept c hc).2, DataType.size_pos c.type_ne_none⟩
  · intro c hc
    exact (hfind c.name c).mpr ⟨hc, (h.kept c hc).1.symm⟩

/-- Blanks and small letters in a name, the timestamp once more, and requests that are refused: for
a column of nothing, for a name that is taken, and for a bound that does not fit. -/
theorem run_layout_of_refusals :
    let additions : List Addition := [⟨.integer .int, " level ", none⟩, ⟨.none, "x", none⟩,
      ⟨.timestamp, "Timestamp", none⟩, ⟨.float, "LEVEL", none⟩,
      ⟨.integer .uchar, "c", some ⟨.integer .int ⟨0, by decide⟩, .integer .int ⟨1000, by decide⟩⟩⟩,
      ⟨.string ⟨3, by decide, by decide⟩, "msg\t", none⟩]
    let b := start.run additions
    let level : Column := ⟨1, 8, .integer .int, "LEVEL", none, by decide⟩
    let msg : Column := ⟨2, 12, .string ⟨3, by decide, by decide⟩, "MSG", none, by decide⟩
    b.columns = [.timestamp, level, msg] ∧ msg.offset = recordSize (b.columns.take 2) ∧
      Text.trim msg.name = msg.name ∧
      ∃ s, Schema.ofColumns b.columns = .ok s ∧ s.recordSize = 15 ∧
        s.column? "\nMsg" = some msg ∧ s.column? level.name = some level := by
  intro additions b level msg
  obtain ⟨-, -, hplace, hkept, -, s, hschema, -, hsize, hfind, hself⟩ := run_layout additions
  have hcolumns : b.columns = [.timestamp, level, msg] := by decide
  have hlevel : level ∈ b.columns := by
    rw [hcolumns]
    exact List.mem_cons_of_mem _ List.mem_cons_self
  have hmsg : msg ∈ b.columns := by
    rw [hcolumns]
    exact List.mem_of_getElem? (i := 2) rfl
  refine ⟨hcolumns, ?_, (hkept msg hmsg).1, s, hschema, ?_, ?_, hself level hlevel⟩
  · exact (hplace 2 msg (by rw [hcolumns]; rfl)).2
  · rw [hsize, hcolumns]
    rfl
  · exact (hfind "\nMsg" msg).mpr ⟨hmsg, rfl⟩

end Builder

end RecordLog
