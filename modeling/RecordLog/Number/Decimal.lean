/-!
# Decimal numerals

Natural numbers are written with the digits 0 to 9 and without leading zeros; an integer below
zero has a minus sign in front. Reading a run of digits is the other direction: leading zeros
do not change its value.
-/

namespace RecordLog.Number

def digitChar (d : Nat) : Char := Char.ofNat (48 + d)

def digitValue (c : Char) : Nat := c.toNat - 48

/-- The decimal digits of a natural number, the most significant one first. -/
def digits (n : Nat) : List Char :=
  if n < 10 then [digitChar n] else digits (n / 10) ++ [digitChar (n % 10)]

def digitCount (n : Nat) : Nat :=
  if n < 10 then 1 else digitCount (n / 10) + 1

/-- The value of a run of digits. -/
def digitsValue (s : List Char) : Nat :=
  s.foldl (fun value c => value * 10 + digitValue c) 0

def decimal (n : Int) : List Char :=
  if n < 0 then '-' :: digits n.natAbs else digits n.natAbs

theorem digitsValue_append_singleton (s : List Char) (c : Char) :
    digitsValue (s ++ [c]) = digitsValue s * 10 + digitValue c := by
  simp [digitsValue, List.foldl_append]

theorem digitValue_digitChar {d : Nat} (h : d < 10) : digitValue (digitChar d) = d := by
  have hd : d = 0 ∨ d = 1 ∨ d = 2 ∨ d = 3 ∨ d = 4 ∨ d = 5 ∨ d = 6 ∨ d = 7 ∨ d = 8 ∨ d = 9 := by
    omega
  rcases hd with h | h | h | h | h | h | h | h | h | h <;> subst h <;> rfl

theorem digitsValue_digits (n : Nat) : digitsValue (digits n) = n := by
  induction n using Nat.strongRecOn with
  | ind n ih =>
    rw [digits]
    split
    · next h => simpa [digitsValue] using digitValue_digitChar h
    · next h =>
      rw [digitsValue_append_singleton, ih (n / 10) (by omega),
        digitValue_digitChar (Nat.mod_lt n (by decide))]
      omega

end RecordLog.Number
