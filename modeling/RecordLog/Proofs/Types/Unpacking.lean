import RecordLog.Proofs.Types.Packing

/-!
# What is unpacked is packed again

Every word of the right width is a number of its kind or of its format, so unpacking a field loses
nothing and packing the value writes the same bytes. The one exception is a truth value: any byte
but zero is read as true, and true is written as one.
-/

namespace RecordLog

namespace IntKind

variable {k : IntKind}

/-- A word is written back for the number that was read from it. -/
theorem Number.toWord_ofWord {word : Nat} (h : word < k.words) : (ofWord k word).toWord = word := by
  have hword := (ofWord k word).toWord_eq
  have hval := val_ofWord h
  have hbounds := (ofWord k word).bounds
  have hhalf := k.words_half
  split at hbounds <;> split at hword <;> split at hval <;> omega

theorem Number.toBytes_ofBytes {data : Bytes} (h : data.length = k.width) :
    (ofBytes k data).toBytes = data := by
  have hword : Bytes.toWord data < k.words := by
    rw [words, ← h]
    exact Bytes.toWord_lt data
  rw [toBytes, ofBytes, toWord_ofWord hword, ← h, Bytes.ofWord_toWord]

theorem number?_val (n : k.Number) : k.number? n.val = some n := dif_pos n.holds

end IntKind

namespace Number.Binary

theorem toWord_ofWord {f : Format} {word : Nat} (h : word < 2 * f.ranks) :
    (ofWord f word).toWord = word := by
  have hdiv := Nat.div_add_mod word f.ranks
  have hquotient : word / f.ranks < 2 := Nat.div_lt_of_lt_mul (by rwa [Nat.mul_comm])
  rcases Nat.le_one_iff_eq_zero_or_eq_one.mp (Nat.le_of_lt_succ hquotient) with hplus | hminus
  · rw [hplus] at hdiv
    simp only [toWord, ofWord, hplus]
    simpa using hdiv
  · rw [hminus] at hdiv
    simp only [toWord, ofWord, hminus]
    simpa using hdiv

end Number.Binary

namespace DataType

open Number

theorem packBinary_ofWord {f : Format} (hsize : 256 ^ f.size = 2 * f.ranks) {data : Bytes}
    (h : data.length = f.size) : packBinary (Binary.ofWord f (Bytes.toWord data)) = data := by
  have hword : Bytes.toWord data < 2 * f.ranks := by
    rw [← hsize, ← h]
    exact Bytes.toWord_lt data
  rw [packBinary, Binary.toWord_ofWord hword, ← h, Bytes.ofWord_toWord]

/-- A byte of a truth value as it is packed. -/
def truthByte (b : UInt8) : UInt8 := if b = 0 then 0 else 1

/-- A field as it is packed. -/
def normal (t : DataType) (field : Bytes) : Bytes :=
  if t = .bool then field.map truthByte else field

theorem normal_of_ne_bool {t : DataType} (h : t ≠ .bool) (field : Bytes) : t.normal field = field :=
  if_neg h

/-- Any bytes of the right number are unpacked, to a value that is packed as the same field. -/
theorem pack_unpack {t : DataType} (ht : t ≠ .none) {field : Bytes} (h : field.length = t.size) :
    ∃ v, t.unpack field = .ok v ∧ t.pack v = .ok (t.normal field) := by
  cases t with
  | none => exact absurd rfl ht
  | bool =>
    obtain ⟨b, rfl⟩ := List.length_eq_one_iff.mp h
    refine ⟨_, if_pos h, ?_⟩
    by_cases hb : b = 0
    · subst hb
      rfl
    · simp [pack, normal, truthByte, hb]
  | integer kind =>
    refine ⟨_, if_pos h, ?_⟩
    rw [normal_of_ne_bool (by simp)]
    simp only [pack, Value.integer?, IntKind.number?_val, IntKind.Number.toBytes_ofBytes h]
  | float =>
    refine ⟨_, if_pos h, ?_⟩
    rw [normal_of_ne_bool (by simp)]
    exact congrArg Except.ok (packBinary_ofWord single_words h)
  | double =>
    refine ⟨_, if_pos h, ?_⟩
    rw [normal_of_ne_bool (by simp)]
    exact congrArg Except.ok (packBinary_ofWord double_words h)
  | string width =>
    have hfull : field.length = width.bytes := h
    refine ⟨_, if_pos h, ?_⟩
    rw [normal_of_ne_bool (by simp)]
    simp [pack, hfull]

end DataType

end RecordLog
