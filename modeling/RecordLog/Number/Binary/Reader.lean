import RecordLog.Number.Binary.Rounding
import RecordLog.Number.Decimal

/-!
# Reading binary numbers from text

A floating-point numeral is an optional sign in front of a name or of a decimal number. The names
are `inf`, `infinity` and `nan` in any case. A decimal number has at least one digit, at most
one point anywhere among the digits, and an optional exponent, which has a sign if it likes and
at least one digit. It is read exactly, and rounded once.
-/

namespace RecordLog.Number

/-- Why a text is no floating-point numeral. -/
inductive FloatFlaw where
  | empty
  | invalid
  deriving DecidableEq

def FloatFlaw.message : FloatFlaw → String
  | .empty => "cannot parse float from empty string"
  | .invalid => "invalid float literal"

/-- The decimal number `digits * 10 ^ exponent`. -/
structure Scientific where
  digits : Nat
  exponent : Int
  deriving DecidableEq

/-- A run of digits that is not empty and stands alone. -/
def readDigits? (s : List Char) : Option Nat :=
  if s ≠ [] ∧ s.all Char.isDigit then some (digitsValue s) else none

/-- The exponent behind the digits, nothing standing for zero. -/
def readExponent? : List Char → Option Int
  | [] => some 0
  | c :: rest =>
    if c = 'e' ∨ c = 'E' then
      match rest with
      | '-' :: rest => (fun n => -Int.ofNat n) <$> readDigits? rest
      | '+' :: rest => (Int.ofNat ·) <$> readDigits? rest
      | rest => (Int.ofNat ·) <$> readDigits? rest
    else none

/-- A decimal number without sign, or nothing if the text is none. -/
def readScientific? (s : List Char) : Option Scientific := do
  let whole := s.takeWhile Char.isDigit
  let rest := s.dropWhile Char.isDigit
  let (fraction, rest) := match rest with
    | '.' :: rest => (rest.takeWhile Char.isDigit, rest.dropWhile Char.isDigit)
    | rest => ([], rest)
  let digits := whole ++ fraction
  if digits = [] then none
  else
    let exponent ← readExponent? rest
    some ⟨digitsValue digits, exponent - fraction.length⟩

namespace Binary

/-- The number that a numeral behind its sign stands for. -/
def readUnsigned (f : Format) (negative : Bool) (s : List Char) :
    Except FloatFlaw (Binary f) :=
  let name := s.map Char.toLower
  if name = "inf".toList ∨ name = "infinity".toList then .ok (ofRank f negative f.infinity)
  else if name = "nan".toList then .ok (nan f negative)
  else
    match readScientific? s with
    | some n => .ok (ofRank f negative (f.nearestDecimal n.digits n.exponent))
    | none => .error .invalid

/-- The number that a numeral stands for, rounded to the format. -/
def read (f : Format) : List Char → Except FloatFlaw (Binary f)
  | [] => .error .empty
  | '-' :: rest => readUnsigned f true rest
  | '+' :: rest => readUnsigned f false rest
  | s => readUnsigned f false s

end Binary

end RecordLog.Number
