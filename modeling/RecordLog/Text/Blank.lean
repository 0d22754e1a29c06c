/-!
# Blank characters

Two notions of white space are in use, and they differ. Names and values written by people are
trimmed of every character that has the Unicode property White_Space. A schema declaration is a
machine format, in which only five ASCII characters separate tokens: the vertical tab is not
one of them.
-/

namespace RecordLog.Text

/-- The code points that have the property White_Space, as closed ranges in rising order. -/
def blankRanges : List (Nat × Nat) :=
  [(0x09, 0x0D), (0x20, 0x20), (0x85, 0x85), (0xA0, 0xA0), (0x1680, 0x1680), (0x2000, 0x200A),
   (0x2028, 0x2029), (0x202F, 0x202F), (0x205F, 0x205F), (0x3000, 0x3000)]

def isBlank (c : Char) : Bool :=
  blankRanges.any fun (low, high) => low ≤ c.toNat && c.toNat ≤ high

/-- A list of characters without the blanks at its front and at its end. -/
def trimBlanks (s : List Char) : List Char :=
  ((s.dropWhile isBlank).reverse.dropWhile isBlank).reverse

def trim (s : String) : String := String.ofList (trimBlanks s.toList)

/-- The bytes that separate the tokens of a declaration: tab, line feed, form feed, carriage
return and space. -/
def isSeparator (b : UInt8) : Bool :=
  b == 0x09 || b == 0x0A || b == 0x0C || b == 0x0D || b == 0x20

end RecordLog.Text
