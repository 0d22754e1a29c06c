import RecordLog.Proofs.Number.Conversion
import RecordLog.Types.Packing

/-!
# What is packed comes back

A value that is packed as a field of some type takes the bytes of that type, and unpacking them
gives the value as the type holds it: an integer is the same number in the type's own kind, a
number is rounded where the type is of another format, a string is filled up.
-/

namespace RecordLog

namespace IntKind

variable {k : IntKind}

theorem words_half (k : IntKind) : k.words / 2 * 2 = k.words := by cases k <;> decide

theorem Number.bounds (n : k.Number) :
    if k.isSigned then -(k.words / 2 : Nat) ≤ n.val ∧ n.val < (k.words / 2 : Nat)
    else 0 ≤ n.val ∧ n.val < k.words := by
  obtain ⟨hlow, hhigh⟩ := n.holds
  by_cases hsigned : k.isSigned = true
  · rw [low, if_pos hsigned] at hlow
    rw [high, if_pos hsigned] at hhigh
    rw [if_pos hsigned]
    omega
  · rw [low, if_neg hsigned] at hlow
    rw [high, if_neg hsigned] at hhigh
    rw [if_neg hsigned]
    omega

/-- Numbers below zero are packed as the words above all others. -/
theorem Number.toWord_eq (n : k.Number) :
    (n.toWord : Int) = if n.val < 0 then n.val + k.words else n.val := by
  have hpos := k.words_pos
  have hbounds : -k.words ≤ n.val ∧ n.val < k.words := by
    have := n.bounds
    have := k.words_half
    split at * <;> omega
  have hnonneg : 0 ≤ n.val % k.words := Int.emod_nonneg _ (by omega)
  rw [toWord, Int.toNat_of_nonneg hnonneg]
  split
  · rw [← Int.add_emod_right, Int.emod_eq_of_lt (by omega) (by omega)]
  · exact Int.emod_eq_of_lt (by omega) (by omega)

theorem Number.toWord_lt (n : k.Number) : n.toWord < k.words := by
  have hword := n.toWord_eq
  have hbounds := n.bounds
  have hhalf := k.words_half
  split at hbounds <;> split at hword <;> omega

theorem Number.val_ofWord {word : Nat} (h : word < k.words) :
    (ofWord k word).val =
      if k.isSigned ∧ k.words / 2 ≤ word then (word : Int) - k.words else word := by
  have hmod : word % k.words = word := Nat.mod_eq_of_lt h
  by_cases hsigned : k.isSigned = true
  · rw [ofWord, dif_pos hsigned]
    change (if word % k.words < k.words / 2 then ((word % k.words : Nat) : Int)
      else (word % k.words : Nat) - k.words) = _
    rw [hmod]
    simp only [hsigned, true_and]
    split <;> split <;> omega
  · rw [ofWord, dif_neg hsigned, if_neg (fun hboth => hsigned hboth.1)]
    change ((word % k.words : Nat) : Int) = word
    rw [hmod]

theorem Number.ext {m n : k.Number} (h : m.val = n.val) : m = n := by
  cases m
  cases n
  cases h
  rfl

/-- A number is read back from the word that packs it. -/
theorem Number.ofWord_toWord (n : k.Number) : ofWord k n.toWord = n := by
  have hword := n.toWord_eq
  have hbounds := n.bounds
  have hhalf := k.words_half
  apply Number.ext
  rw [val_ofWord n.toWord_lt]
  by_cases hsigned : k.isSigned = true
  · simp only [hsigned, if_true, true_and] at hbounds ⊢
    split at hword <;> split <;> omega
  · rw [if_neg hsigned] at hbounds
    rw [if_neg (fun hboth => hsigned hboth.1), hword, if_neg (by omega)]

theorem Number.ofBytes_toBytes (n : k.Number) : ofBytes k n.toBytes = n := by
  have hword : n.toWord % 256 ^ k.width = n.toWord := Nat.mod_eq_of_lt n.toWord_lt
  rw [ofBytes, toBytes, Bytes.toWord_ofWord, hword, ofWord_toWord]

theorem val_of_number? {n : Int} {m : k.Number} (h : k.number? n = some m) : m.val = n := by
  unfold number? at h
  split at h
  · obtain rfl := Option.some.inj h
    rfl
  · cases h

end IntKind

namespace Number.Binary

variable {f : Format}

theorem toWord_lt (x : Binary f) : x.toWord < 2 * f.ranks := by
  have hrank := x.rank_lt
  rw [toWord]
  split <;> omega

end Number.Binary

namespace DataType

open Number

/-- A number of a format whose words fill their bytes is read back from its bytes. -/
theorem ofWord_packBinary {f : Format} (hsize : 256 ^ f.size = 2 * f.ranks) (x : Binary f) :
    Binary.ofWord f (Bytes.toWord (packBinary x)) = x := by
  rw [packBinary, Bytes.toWord_ofWord, hsize, Nat.mod_eq_of_lt x.toWord_lt, Binary.ofWord_toWord]

theorem single_words : 256 ^ Format.single.size = 2 * Format.single.ranks := by decide

theorem double_words : 256 ^ Format.double.size = 2 * Format.double.ranks := by decide

/-- Which value a field of a type gives back for the one that was packed as it. -/
inductive Stores : DataType → Value → Value → Prop where
  | bool (b : Bool) : Stores .bool (.bool b) (.bool b)
  | integer {k kind : IntKind} {n : k.Number} {m : kind.Number} (h : m.val = n.val) :
      Stores (.integer kind) (.integer k n) (.integer kind m)
  | single (x : Single) : Stores .float (.float x) (.float x)
  | narrowed {x : Double} {y : Single} (h : y.IsRounding x)
      (hfinite : x.isFinite = true → y.isFinite = true) :
      Stores .float (.double x) (.float y)
  /-- An integer is rounded twice on its way into the smaller format. -/
  | narrowedInteger {k : IntKind} {n : k.Number} {x : Double} {y : Single}
      (hx : x.IsRoundingOfInt n.val) (hy : y.IsRounding x)
      (hfinite : x.isFinite = true → y.isFinite = true) :
      Stores .float (.integer k n) (.float y)
  | double (x : Double) : Stores .double (.double x) (.double x)
  | widened {x : Single} {y : Double} (h : y.IsWidening x) :
      Stores .double (.float x) (.double y)
  | roundedInteger {k : IntKind} {n : k.Number} {y : Double} (h : y.IsRoundingOfInt n.val) :
      Stores .double (.integer k n) (.double y)
  | string {width : StringWidth} {bytes : Bytes} (h : bytes.length ≤ width.bytes) :
      Stores (.string width) (.string bytes)
        (.string (bytes ++ List.replicate (width.bytes - bytes.length) 0))

/-- A value that has a number of 64 bits is packed as its rounding to 32 bits, and is refused if
that makes a finite number infinite. -/
theorem of_packSingle {v : Value} {data : Bytes} (h : packSingle v = .ok data) :
    ∃ y : Single, data = packBinary y ∧ Stores .float v (.float y) := by
  -- What is checked is the result: a finite number must not have become infinite.
  have hnarrow {x : Double} (hrange : ¬ (x.isFinite && (x.convert .single).isInfinite) = true) :
      x.isFinite = true → (x.convert .single).isFinite = true := by
    intro hfinite
    have hround := x.convert_isRounding .single
    have hle := (hround.finite hfinite).le_infinity
    simp only [hfinite, Bool.true_and, Binary.isInfinite, decide_eq_true_eq] at hrange
    exact decide_eq_true (Nat.lt_of_le_of_ne hle hrange)
  unfold packSingle at h
  cases v with
  | float x =>
    obtain rfl : packBinary x = data := Except.ok.inj h
    exact ⟨x, rfl, .single x⟩
  | double x =>
    simp only [Value.double?] at h
    split at h
    · cases h
    · next hrange =>
      obtain rfl := Except.ok.inj h
      exact ⟨_, rfl, .narrowed (x.convert_isRounding .single) (hnarrow hrange)⟩
  | integer k n =>
    simp only [Value.double?] at h
    split at h
    · cases h
    · next hrange =>
      obtain rfl := Except.ok.inj h
      refine ⟨_, rfl, .narrowedInteger (Binary.ofInt_isRounding .double n.val) ?_ (hnarrow hrange)⟩
      exact Binary.convert_isRounding .single _
  | bool b => cases h
  | string bytes => cases h

/-- Packing as a number of 64 bits. -/
theorem of_packDouble {v : Value} {data : Bytes} (h : DataType.double.pack v = .ok data) :
    ∃ y : Double, data = packBinary y ∧ Stores .double v (.double y) := by
  cases v with
  | float x =>
    obtain rfl := Except.ok.inj h
    exact ⟨_, rfl, .widened ((x.convert_isRounding .double).isWidening (by decide) (by decide))⟩
  | double x =>
    obtain rfl := Except.ok.inj h
    exact ⟨x, rfl, .double x⟩
  | integer k n =>
    obtain rfl := Except.ok.inj h
    exact ⟨_, rfl, .roundedInteger (Binary.ofInt_isRounding .double n.val)⟩
  | bool b => cases h
  | string bytes => cases h

/-- What is packed has the size of its type and is unpacked to what the type stores. -/
theorem unpack_pack {t : DataType} {v : Value} {data : Bytes} (h : t.pack v = .ok data) :
    data.length = t.size ∧ ∃ w, t.unpack data = .ok w ∧ t.Stores v w := by
  cases t with
  | none => cases h
  | bool =>
    cases v with
    | bool b =>
      obtain rfl : [if b then 1 else 0] = data := Except.ok.inj h
      exact ⟨rfl, .bool b, by cases b <;> rfl, .bool b⟩
    | _ => cases h
  | integer kind =>
    cases v with
    | integer k n =>
      simp only [pack, Value.integer?] at h
      split at h
      · next m hm =>
        obtain rfl := Except.ok.inj h
        have hlength : m.toBytes.length = (integer kind).size := Bytes.length_ofWord _ _
        refine ⟨hlength, .integer kind m, ?_, .integer ?_⟩
        · rw [unpack, if_pos hlength, m.ofBytes_toBytes]
        · exact IntKind.val_of_number? hm
      · cases h
    | _ => cases h
  | float =>
    obtain ⟨y, rfl, hstores⟩ := of_packSingle h
    have hlength : (packBinary y).length = DataType.float.size := Bytes.length_ofWord _ _
    refine ⟨hlength, .float y, ?_, hstores⟩
    rw [unpack, if_pos hlength, ofWord_packBinary single_words]
  | double =>
    obtain ⟨y, rfl, hstores⟩ := of_packDouble h
    have hlength : (packBinary y).length = DataType.double.size := Bytes.length_ofWord _ _
    refine ⟨hlength, .double y, ?_, hstores⟩
    rw [unpack, if_pos hlength, ofWord_packBinary double_words]
  | string width =>
    cases v with
    | string bytes =>
      rw [pack] at h
      split at h
      · next hle =>
        obtain rfl := Except.ok.inj h
        have hlength : (bytes ++ List.replicate (width.bytes - bytes.length) 0).length =
            (string width).size := by
          rw [List.length_append, List.length_replicate, size]
          omega
        refine ⟨hlength, _, ?_, .string hle⟩
        rw [unpack, if_pos hlength]
      · cases h
    | _ => cases h

end DataType

end RecordLog
