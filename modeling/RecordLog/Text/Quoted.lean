import RecordLog.Text.Unprintable

/-!
# Quoted text

Messages show a text or a character that was given from outside between quotes, so that blanks
and invisible characters in it can be seen. A backslash introduces the short escapes and the
code points; the quote that delimits the form is escaped, the other one is not.
-/

namespace RecordLog.Text

/-- The lower-case hexadecimal digits of a number, without leading zeros. -/
def hexDigits (n : Nat) : String := String.ofList (Nat.toDigits 16 n)

/-- A character as it stands between quotes of the given kind. -/
def quotedChar (quote c : Char) : String :=
  if c = quote then String.ofList ['\\', quote]
  else if c = '\\' then "\\\\"
  else if c = '\n' then "\\n"
  else if c = '\r' then "\\r"
  else if c = '\t' then "\\t"
  else if c.toNat = 0 then "\\0"
  else if isUnprintable c then "\\u\x7b" ++ hexDigits c.toNat ++ "\x7d"
  else c.toString

def quoted (s : String) : String :=
  "\"" ++ String.join (s.toList.map (quotedChar '"')) ++ "\""

def quotedAlone (c : Char) : String := "'" ++ quotedChar '\'' c ++ "'"

end RecordLog.Text
