import RecordLog.Proofs.Types.Packing

/-!
# Which values a type takes

Whether a value can be packed is told by the type and the value alone. Integers of any kind go
where their number has room, all numbers go where they are rounded, unless a finite one is rounded
to infinity, and strings go where they are not too long. A value that is taken is written behind
what the buffer holds, in the bytes of its type; one that is refused leaves the buffer as it was.
-/

namespace RecordLog

namespace Number.Binary

variable {f g : Format} {x : Binary f}

/-- Whether a finite number is rounded to infinity in another format. -/
def Overflows (g : Format) (x : Binary f) : Prop :=
  x.isFinite = true ∧ ∃ y : Binary g, y.IsRounding x ∧ y.isInfinite = true

theorem overflows_iff :
    x.Overflows g ↔ x.isFinite = true ∧ (x.convert g).isInfinite = true := by
  have hround := x.convert_isRounding g
  constructor
  · rintro ⟨hfinite, y, hy, hinfinite⟩
    have hrank : (x.convert g).rank = y.rank :=
      (hround.finite hfinite).unique (hy.finite hfinite)
    refine ⟨hfinite, ?_⟩
    rw [isInfinite, hrank]
    exact hinfinite
  · rintro ⟨hfinite, hinfinite⟩
    exact ⟨hfinite, _, hround, hinfinite⟩

/-- A number that came from a smaller format has room there. -/
theorem IsWidening.not_overflows {y : Binary g} (h : y.IsWidening x) : ¬ y.Overflows f := by
  rintro ⟨hy, z, hround, hinfinite⟩
  obtain ⟨hnan, hnotInfinite⟩ := isNaN_isInfinite_of_isFinite hy
  have hz : z.rank = f.infinity := of_decide_eq_true hinfinite
  rcases Nat.lt_trichotomy x.rank f.infinity with hlt | heq | hgt
  · obtain ⟨-, hvalue⟩ := h.finite (decide_eq_true hlt)
    have hrank : z.rank = x.rank := (hround.finite hy).eq_of_magnitude_eq hlt.le hvalue.symm
    omega
  · rw [h.infinite (decide_eq_true heq)] at hnotInfinite
    cases hnotInfinite
  · rw [h.nan (decide_eq_true hgt)] at hnan
    cases hnan

end Number.Binary

namespace Value

open Number

variable {v : Value} {x : Double}

def IsNumber : Value → Prop
  | .integer .. | .float _ | .double _ => True
  | .bool _ | .string _ => False

/-- Whether a number of 64 bits is what a value is read as: an integer is rounded to it, a number of
32 bits has the same value. -/
def StandsFor (v : Value) (x : Double) : Prop :=
  match v with
  | .integer _ n => x.IsRoundingOfInt n.val
  | .float y => x.IsWidening y
  | .double y => x = y
  | .bool _ | .string _ => False

/-- Whether two values are the same integer, in any of the kinds. -/
def SameInteger (v w : Value) : Prop := ∃ n, v.integer? = some n ∧ w.integer? = some n

theorem isNumber_iff : v.IsNumber ↔ ∃ x, v.double? = some x := by
  cases v <;> simp [IsNumber, double?]

theorem standsFor_of_double? (h : v.double? = some x) : v.StandsFor x := by
  cases v with
  | integer k n =>
    obtain rfl := Option.some.inj h
    exact Binary.ofInt_isRounding .double n.val
  | float y =>
    obtain rfl := Option.some.inj h
    exact (y.convert_isRounding .double).isWidening (by decide) (by decide)
  | double y => exact (Option.some.inj h).symm
  | bool b => cases h
  | string bytes => cases h

/-- All numbers that a value is read as are too large for the smaller format, or none is. Only the
NaNs are not told by the value, and they are not finite. -/
theorem StandsFor.overflows_iff {y : Double} (hx : v.StandsFor x) (hy : v.StandsFor y) :
    x.Overflows .single ↔ y.Overflows .single := by
  cases v with
  | integer k n => rw [Binary.IsRoundingOfInt.unique hx hy]
  | float z =>
    have hwide : x.IsWidening z := hx
    have hwide' : y.IsWidening z := hy
    exact iff_of_false hwide.not_overflows hwide'.not_overflows
  | double z =>
    have hx' : x = z := hx
    have hy' : y = z := hy
    rw [hx', hy']
  | bool b => cases hx
  | string bytes => cases hx

end Value

namespace DataType

open Number

variable {t : DataType} {v w : Value} {buffer field : Bytes}

/-- Which values a type takes. -/
inductive Takes : DataType → Value → Prop where
  | bool (b : Bool) : Takes .bool (.bool b)
  | integer {k kind : IntKind} {n : k.Number} (h : kind.Holds n.val) :
      Takes (.integer kind) (.integer k n)
  | double {v : Value} (h : v.IsNumber) : Takes .double v
  | float {v : Value} (h : v.IsNumber) (hrange : ∀ x, v.StandsFor x → ¬ x.Overflows .single) :
      Takes .float v
  | string {width : StringWidth} {bytes : Bytes} (h : bytes.length ≤ width.bytes) :
      Takes (.string width) (.string bytes)

theorem takes_float_iff {x : Double} (h : v.double? = some x) :
    Takes .float v ↔ ¬ x.Overflows .single := by
  have hx := Value.standsFor_of_double? h
  constructor
  · intro htakes
    cases htakes with
    | float _ hrange => exact hrange x hx
  · intro hroom
    refine .float (Value.isNumber_iff.mpr ⟨x, h⟩) ?_
    intro y hy hover
    exact hroom ((hx.overflows_iff hy).mpr hover)

/-- A number of 32 bits is packed as it is, all others are rounded. -/
theorem packSingle_eq {x : Double} (h : v.double? = some x) (hfloat : ¬ ∃ y, v = .float y) :
    packSingle v = if x.isFinite && (x.convert .single).isInfinite then .error (.singleRange x)
      else .ok (packBinary (x.convert .single)) := by
  cases v with
  | float y => exact absurd ⟨y, rfl⟩ hfloat
  | integer k n =>
    obtain rfl := Option.some.inj h
    rfl
  | double y =>
    obtain rfl := Option.some.inj h
    rfl
  | bool b => cases h
  | string bytes => cases h

theorem exists_packSingle_iff {x : Double} (h : v.double? = some x) :
    (∃ field, packSingle v = .ok field) ↔ ¬ x.Overflows .single := by
  by_cases hfloat : ∃ y, v = .float y
  · obtain ⟨y, rfl⟩ := hfloat
    have hwide : x.IsWidening y := Value.standsFor_of_double? h
    exact iff_of_true ⟨_, rfl⟩ hwide.not_overflows
  · rw [packSingle_eq h hfloat, Binary.overflows_iff, ← Bool.and_eq_true]
    split
    · next hover => simp [hover]
    · next hroom => simp [hroom]

theorem Takes.exists_pack (h : t.Takes v) : ∃ field, t.pack v = .ok field := by
  cases h with
  | bool b => exact ⟨_, rfl⟩
  | integer hholds => simp [pack, Value.integer?, IntKind.number?, hholds]
  | double hnumber =>
    obtain ⟨x, hx⟩ := Value.isNumber_iff.mp hnumber
    simp [pack, hx]
  | float hnumber hrange =>
    obtain ⟨x, hx⟩ := Value.isNumber_iff.mp hnumber
    apply (exists_packSingle_iff hx).mpr
    exact hrange x (Value.standsFor_of_double? hx)
  | string hle => simp [pack, hle]

theorem takes_of_pack (h : t.pack v = .ok field) : t.Takes v := by
  -- The form of the value is told by what the field stores, but not that a number was in range.
  have hfloat {x : Double} (hx : v.double? = some x) (hsingle : packSingle v = .ok field) :
      Takes .float v :=
    (takes_float_iff hx).mpr ((exists_packSingle_iff hx).mp ⟨field, hsingle⟩)
  obtain ⟨-, stored, -, hstores⟩ := unpack_pack h
  cases hstores with
  | bool b => exact .bool b
  | @integer k kind n m hval =>
    apply Takes.integer
    rw [← hval]
    exact m.holds
  | single x => exact hfloat rfl h
  | narrowed => exact hfloat rfl h
  | narrowedInteger => exact hfloat rfl h
  | double x => exact .double trivial
  | widened => exact .double trivial
  | roundedInteger => exact .double trivial
  | string hle => exact .string hle

/-- A value is packed exactly if its type takes it. -/
theorem exists_pack_iff : (∃ field, t.pack v = .ok field) ↔ t.Takes v := by
  constructor
  · rintro ⟨field, h⟩
    exact takes_of_pack h
  · exact Takes.exists_pack

/-- Only the number of an integer is packed, whatever its kind is. -/
theorem pack_of_sameInteger (hsame : v.SameInteger w) (h : t.pack v = .ok field) :
    t.pack w = .ok field := by
  obtain ⟨n, hv, hw⟩ := hsame
  cases v with
  | integer k m =>
    cases w with
    | integer k' m' =>
      have heq : m'.val = m.val := (Option.some.inj hw).trans (Option.some.inj hv).symm
      cases t with
      | integer kind => simpa [pack, Value.integer?, heq] using h
      | float => simpa [pack, packSingle, Value.double?, heq] using h
      | double => simpa [pack, Value.double?, heq] using h
      | none | bool | string => cases h
    | _ => cases hw
  | _ => cases hv

theorem resize_append {bytes : Bytes} {size : Nat} (h : bytes.length ≤ size) :
    Bytes.resize ((buffer ++ bytes).length + size - bytes.length) (buffer ++ bytes) =
      buffer ++ (bytes ++ List.replicate (size - bytes.length) 0) := by
  have hsize : (buffer ++ bytes).length + size - bytes.length =
      (buffer ++ bytes).length + (size - bytes.length) := by omega
  rw [Bytes.resize, hsize, List.take_of_length_le (by omega), Nat.add_sub_cancel_left,
    List.append_assoc]

/-- What is written behind a buffer is the field. -/
theorem packBehind_eq (t : DataType) (v : Value) (buffer : Bytes) :
    t.packBehind v buffer =
      match t.pack v with
      | .ok field => (.ok (), buffer ++ field)
      | .error cause => (.error cause, buffer) := by
  cases t with
  | string width =>
    cases v with
    | string bytes =>
      by_cases hle : bytes.length ≤ width.bytes
      · simp only [packBehind, pack, if_pos hle, resize_append hle]
      · simp [packBehind, pack, hle]
    | _ => rfl
  | _ => rfl

theorem packBehind_of_pack (h : t.pack v = .ok field) (buffer : Bytes) :
    t.packBehind v buffer = (.ok (), buffer ++ field) := by
  rw [packBehind_eq, h]

theorem packBehind_of_error {cause : EncodingFault} (h : t.pack v = .error cause)
    (buffer : Bytes) : t.packBehind v buffer = (.error cause, buffer) := by
  rw [packBehind_eq, h]

/-- A value that its type takes is written behind what the buffer holds, in as many bytes as the
type has. They are told by the type and the value alone, and of an integer by its number. Any other
value is refused, and leaves the buffer as it was. -/
theorem packBehind_iff_takes (t : DataType) (v : Value) (buffer : Bytes) :
    ((t.packBehind v buffer).1 = .ok () ↔ t.Takes v) ∧
    (t.Takes v → ∃ field, t.pack v = .ok field ∧ field.length = t.size ∧
      t.packBehind v buffer = (.ok (), buffer ++ field) ∧
      ∀ w, v.SameInteger w →
        t.pack w = .ok field ∧ t.packBehind w buffer = (.ok (), buffer ++ field)) ∧
    (¬ t.Takes v → ∃ cause, t.packBehind v buffer = (.error cause, buffer)) := by
  rw [← exists_pack_iff]
  cases hpack : t.pack v with
  | ok field =>
    have hbehind := packBehind_of_pack hpack buffer
    refine ⟨?_, ?_, ?_⟩
    · simp [hbehind]
    · intro _
      refine ⟨field, rfl, (unpack_pack hpack).1, hbehind, ?_⟩
      intro w hsame
      have hother := pack_of_sameInteger hsame hpack
      exact ⟨hother, packBehind_of_pack hother buffer⟩
    · intro hnone
      exact absurd ⟨field, rfl⟩ hnone
  | error cause =>
    have hbehind := packBehind_of_error hpack buffer
    refine ⟨?_, ?_, ?_⟩
    · simp [hbehind]
    · rintro ⟨field, hfield⟩
      cases hfield
    · intro _
      exact ⟨cause, hbehind⟩

/-- A short string is filled up behind the buffer. A number is the same byte in all kinds that have
room for it, and minus one has no place among the numbers without a sign. -/
theorem packBehind_iff_takes_of_each_outcome :
    let width : StringWidth := ⟨4, by decide, by decide⟩
    let seven (k : IntKind) (h : k.Holds 7) : Value := .integer k ⟨7, h⟩
    (∃ field, field.length = 4 ∧
      packBehind (.string width) (.string [97, 98]) [1, 2, 3] = (.ok (), [1, 2, 3] ++ field)) ∧
    (∃ field, packBehind (.integer .char) (seven .char (by decide)) [] = (.ok (), field) ∧
      packBehind (.integer .char) (seven .ulong (by decide)) [] = (.ok (), field)) ∧
    ∃ cause, packBehind (.integer .uchar) (.integer .int ⟨-1, by decide⟩) [1, 2, 3] =
      (.error cause, [1, 2, 3]) := by
  intro width seven
  refine ⟨?_, ?_, ?_⟩
  · have hshort : Takes (.string width) (.string [97, 98]) := .string (by decide)
    obtain ⟨field, -, hlength, hbehind, -⟩ :=
      (packBehind_iff_takes (.string width) (.string [97, 98]) [1, 2, 3]).2.1 hshort
    exact ⟨field, hlength, hbehind⟩
  · have hchar : Takes (.integer .char) (seven .char (by decide)) := .integer (by decide)
    obtain ⟨field, -, -, hbehind, hsame⟩ :=
      (packBehind_iff_takes (.integer .char) (seven .char (by decide)) []).2.1 hchar
    exact ⟨field, hbehind, (hsame (seven .ulong (by decide)) ⟨7, rfl, rfl⟩).2⟩
  · apply (packBehind_iff_takes _ _ _).2.2
    rintro ⟨⟩
    contradiction

end DataType

end RecordLog
