import RecordLog.Number.Decimal

/-!
# Reading integers within limits

A numeral is an optional sign and at least one digit; a minus sign is part of the grammar only
if the limits admit numbers below zero. The digits are read from left to right, and the first
one that is no digit or that takes the number past its limit decides why a text is refused.
-/

namespace RecordLog.Number

/-- Why a text is no integer within the limits. -/
inductive IntegerFlaw where
  | empty
  | invalidDigit
  | tooLarge
  | tooSmall
  deriving DecidableEq

def IntegerFlaw.message : IntegerFlaw → String
  | .empty => "cannot parse integer from empty string"
  | .invalidDigit => "invalid digit found in string"
  | .tooLarge => "number too large to fit in target type"
  | .tooSmall => "number too small to fit in target type"

/-- Reads digits behind a value read so far, up to a limit. The flaw `beyond` is reported at the
first digit that takes the value past the limit. -/
def readMagnitude (limit : Nat) (beyond : IntegerFlaw) :
    (value : Nat) → value ≤ limit → List Char → Except IntegerFlaw { n : Nat // n ≤ limit }
  | value, h, [] => .ok ⟨value, h⟩
  | value, _, c :: rest =>
    if c.isDigit then
      if h : value * 10 + digitValue c ≤ limit then
        readMagnitude limit beyond (value * 10 + digitValue c) h rest
      else .error beyond
    else .error .invalidDigit

/-- Reads an integer from `low` to `high`, between which zero lies. -/
def readInteger (low high : Int) (h : low ≤ 0 ∧ 0 ≤ high) (s : List Char) :
    Except IntegerFlaw { n : Int // low ≤ n ∧ n ≤ high } :=
  let unsigned (s : List Char) : Except IntegerFlaw { n : Int // low ≤ n ∧ n ≤ high } :=
    (readMagnitude high.toNat .tooLarge 0 (Nat.zero_le _) s).map fun n =>
      ⟨n.val, by have := n.property; omega⟩
  match s with
  | [] => .error .empty
  | ['+'] | ['-'] => .error .invalidDigit
  | '+' :: rest => unsigned rest
  | '-' :: rest =>
    if low < 0 then
      (readMagnitude low.natAbs .tooSmall 0 (Nat.zero_le _) rest).map fun n =>
        ⟨-n.val, by have := n.property; omega⟩
    else .error .invalidDigit
  | s => unsigned s

end RecordLog.Number
