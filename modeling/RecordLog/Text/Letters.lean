/-!
# Letters without their case

Names of columns and types are compared without regard to the case of the letters A to Z; any
other character, a letter beyond ASCII included, stands for itself.
-/

namespace RecordLog.Text

/-- The text with the letters a to z written as capitals. -/
def upper (s : String) : String := String.ofList (s.toList.map Char.toUpper)

/-- The text with the letters A to Z written small. -/
def lower (s : String) : String := String.ofList (s.toList.map Char.toLower)

end RecordLog.Text
