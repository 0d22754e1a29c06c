import RecordLog.Proofs.Number.Texts
import RecordLog.Proofs.Text.Utf8
import RecordLog.Proofs.Types.Unpacking
import RecordLog.Types.Written

/-!
# What is written is read back

The text of a field is read back as a value that is packed as the same field. This holds for every
field but those that no text stands for: a truth value that is neither zero nor one, a NaN, and a
string that is not UTF-8. The zeros that fill up a string are not part of its text, and packing
puts them back.
-/

namespace RecordLog

namespace Text

theorem trim_ofList {s : List Char} (h : ∀ c ∈ s, isBlank c = false) :
    trim (String.ofList s) = String.ofList s := by
  have hfront {t : List Char} (ht : ∀ c ∈ t, isBlank c = false) : t.dropWhile isBlank = t := by
    cases t with
    | nil => rfl
    | cons c rest => rw [List.dropWhile_cons_of_neg (by simp [ht c List.mem_cons_self])]
  have hback : ∀ c ∈ s.reverse, isBlank c = false := fun c hc => h c (List.mem_reverse.mp hc)
  rw [trim, String.toList_ofList, trimBlanks, hfront h, hfront hback, List.reverse_reverse]

theorem isBlank_of_mem {name : String} (h : name.toList.all (!isBlank ·) = true) :
    ∀ c ∈ name.toList, isBlank c = false := by
  intro c hc
  simpa using List.all_eq_true.mp h c hc

theorem trim_name {name : String} (h : name.toList.all (!isBlank ·) = true) : trim name = name := by
  have htrim := trim_ofList (isBlank_of_mem h)
  rw [String.ofList_toList] at htrim
  exact htrim

theorem isBlank_of_isDigit {c : Char} (h : c.isDigit = true) : isBlank c = false := by
  have hall : ∀ d : Fin 10, isBlank (Number.digitChar d.val) = false := by decide
  obtain ⟨d, rfl⟩ := Number.exists_eq_digitChar h
  exact hall d

theorem trim_decimal (n : Int) :
    trim (String.ofList (Number.decimal n)) = String.ofList (Number.decimal n) := by
  apply trim_ofList
  intro c hc
  rw [Number.decimal] at hc
  split at hc
  · rcases List.mem_cons.mp hc with rfl | hdigit
    · decide
    · exact isBlank_of_isDigit (Number.isDigit_of_mem_digits hdigit)
  · exact isBlank_of_isDigit (Number.isDigit_of_mem_digits hc)

theorem trim_text {f : Number.Format} (x : Number.Binary f) :
    trim (String.ofList x.text) = String.ofList x.text := by
  have hmagnitude : ∀ c ∈ if x.isInfinite then "inf".toList
      else Number.positional (f.shortest x.rank).1 (f.shortest x.rank).2, isBlank c = false := by
    intro c hc
    split at hc
    · exact isBlank_of_mem rfl c hc
    · rcases Number.mem_positional hc with hdigit | rfl
      · exact isBlank_of_isDigit hdigit
      · decide
  apply trim_ofList
  intro c hc
  rw [Number.Binary.text] at hc
  split at hc
  · exact isBlank_of_mem rfl c hc
  dsimp only at hc
  split at hc
  · rcases List.mem_cons.mp hc with rfl | hc
    · decide
    · exact hmagnitude c hc
  · exact hmagnitude c hc

end Text

namespace DataType

/-! ## Strings -/

theorem withoutFill_append_replicate (field : Bytes) :
    withoutFill field ++ List.replicate (field.length - (withoutFill field).length) 0 = field := by
  obtain ⟨count, hsplit⟩ := exists_eq_append_replicate (0 : UInt8) field
  have hlength := congrArg List.length hsplit
  rw [List.length_append, List.length_replicate] at hlength
  have hcount : field.length - (withoutFill field).length = count := by
    unfold withoutFill
    omega
  rw [hcount]
  exact hsplit.symm

theorem length_withoutFill_le (field : Bytes) : (withoutFill field).length ≤ field.length := by
  rw [withoutFill, List.length_reverse]
  have hle := (List.dropWhile_sublist (· = 0) (l := field.reverse)).length_le
  rwa [List.length_reverse] at hle

/-- Without the zeros at its end, the encoding of a text is that of a text. -/
theorem exists_encode_withoutFill (text : String) :
    ∃ short, Text.Utf8.encode short = withoutFill (Text.Utf8.encode text) := by
  unfold Text.Utf8.encode
  induction text.toList using List.reverseRecOn with
  | nil => exact ⟨"", rfl⟩
  | append_singleton chars x ih =>
    rw [List.flatMap_append, List.flatMap_singleton]
    by_cases hx : x = Char.ofNat 0
    · obtain ⟨short, hshort⟩ := ih
      refine ⟨short, hshort.trans ?_⟩
      subst hx
      exact (List.rdropWhile_concat_pos _ _ _ (by decide)).symm
    · obtain ⟨front, b, hb, hne⟩ := Text.Utf8.encodeChar_getLast hx
      refine ⟨String.ofList (chars ++ [x]), ?_⟩
      rw [String.toList_ofList, List.flatMap_append, List.flatMap_singleton, hb,
        ← List.append_assoc]
      exact (List.rdropWhile_concat_neg _ _ _ (by simpa using hne)).symm

/-! ## Fields -/

/-- Whether the text of a field stands for it. -/
def Legible (t : DataType) (field : Bytes) : Prop :=
  match t with
  | .bool => field = [0] ∨ field = [1]
  | .float => (Number.Binary.ofWord .single (Bytes.toWord field)).isNaN = false
  | .double => (Number.Binary.ofWord .double (Bytes.toWord field)).isNaN = false
  | .string _ => ∃ text, Text.Utf8.encode text = field
  | .none | .integer _ => True

theorem readNumber_decimal {kind : IntKind} (n : kind.Number) :
    readNumber kind (String.ofList (Number.decimal n.val)) = .ok n := by
  rw [readNumber, String.toList_ofList, Number.readInteger_decimal kind.holds_zero n.holds]

/-- A number is read from the text of any value that is the same number. -/
theorem readValue_integer {k kind : IntKind} (n : k.Number) (m : kind.Number) (h : m.val = n.val) :
    (integer kind).readValue (Value.integer k n).text = .ok (.integer kind m) := by
  rw [Value.text, readValue, Text.trim_decimal, ← h, readNumber_decimal]
  rfl

theorem readBinary_text {f : Number.Format} {x : Number.Binary f} (hnan : x.isNaN = false)
    (t : DataType) : readBinary f t (String.ofList x.text) = .ok x := by
  rw [readBinary, String.toList_ofList, Number.Binary.read_of_text hnan]
  rfl

theorem pack_of_unpack {t : DataType} (ht : t ≠ .none) (hbool : t ≠ .bool) {field : Bytes}
    {v : Value} (h : field.length = t.size) (hunpack : t.unpack field = .ok v) :
    t.pack v = .ok field := by
  obtain ⟨w, hw, hpack⟩ := pack_unpack ht h
  obtain rfl := Except.ok.inj (hw.symm.trans hunpack)
  rwa [normal_of_ne_bool hbool] at hpack

/-- A value that is no string is written as its own text, whatever its field. -/
theorem writeValue_of_unpack {t : DataType} {field : Bytes} {v : Value}
    (hstring : ∀ bytes, v ≠ .string bytes) (hunpack : t.unpack field = .ok v) :
    t.writeValue field = .ok v.text := by
  rw [writeValue, hunpack]
  cases v with
  | string bytes => exact absurd rfl (hstring bytes)
  | _ => rfl

/-- The text of a field is read as a value that is packed as that field. -/
theorem pack_readValue_writeValue {t : DataType} (ht : t ≠ .none) {field : Bytes}
    (h : field.length = t.size) (hlegible : t.Legible field) :
    ∃ text v, t.writeValue field = .ok text ∧ t.readValue text = .ok v ∧ t.pack v = .ok field := by
  cases t with
  | none => exact absurd rfl ht
  | bool =>
    rcases hlegible with rfl | rfl
    · exact ⟨"false", .bool false, rfl, by rw [readValue, Text.trim_name rfl]; rfl, rfl⟩
    · exact ⟨"true", .bool true, rfl, by rw [readValue, Text.trim_name rfl]; rfl, rfl⟩
  | integer kind =>
    have hunpack : (integer kind).unpack field = .ok (.integer kind (.ofBytes kind field)) :=
      if_pos h
    exact ⟨_, _, writeValue_of_unpack (by simp) hunpack, readValue_integer _ _ rfl,
      pack_of_unpack ht (by simp) h hunpack⟩
  | float =>
    have hunpack : float.unpack field = .ok (.float (.ofWord .single (Bytes.toWord field))) :=
      if_pos h
    refine ⟨_, _, writeValue_of_unpack (by simp) hunpack, ?_,
      pack_of_unpack ht (by simp) h hunpack⟩
    rw [Value.text, readValue, Text.trim_text, readBinary_text hlegible]
    rfl
  | double =>
    have hunpack : double.unpack field = .ok (.double (.ofWord .double (Bytes.toWord field))) :=
      if_pos h
    refine ⟨_, _, writeValue_of_unpack (by simp) hunpack, ?_,
      pack_of_unpack ht (by simp) h hunpack⟩
    rw [Value.text, readValue, Text.trim_text, readBinary_text hlegible]
    rfl
  | string width =>
    have hunpack : (string width).unpack field = .ok (.string field) := if_pos h
    have hfull : field.length = width.bytes := h
    obtain ⟨text, rfl⟩ := hlegible
    obtain ⟨short, hshort⟩ := exists_encode_withoutFill text
    have hle : (Text.Utf8.encode short).length ≤ width.bytes := by
      rw [hshort, ← hfull]
      exact length_withoutFill_le _
    refine ⟨short, .string (Text.Utf8.encode short), ?_, if_pos hle, ?_⟩
    · rw [writeValue, hunpack]
      change Except.ok (Text.Utf8.decodeLossy (withoutFill (Text.Utf8.encode text))) = _
      rw [← hshort, Text.Utf8.decodeLossy_encode]
    · have hfill := withoutFill_append_replicate (Text.Utf8.encode text)
      rw [← hshort, hfull] at hfill
      rw [pack, if_pos hle, hfill]

end DataType

end RecordLog
