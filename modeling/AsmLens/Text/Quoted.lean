import AsmLens.Text.Printable

/-!
Quoted text. Between double quotes a text stands as it is, but for quotes, backslashes and
characters that do not print; those are written as escapes. A single quote needs none.
-/

namespace AsmLens.Text

/-- The escape of a character by its number. -/
def numericEscape (c : Char) : String :=
  "\\u\x7b" ++ String.ofList (Nat.toDigits 16 c.toNat) ++ "\x7d"

/-- A character as it stands between quotes. -/
def quotedChar (c : Char) : String :=
  if c = '\x00' then "\\0"
  else if c = '\t' then "\\t"
  else if c = '\r' then "\\r"
  else if c = '\n' then "\\n"
  else if c = '\\' || c = '"' then String.ofList ['\\', c]
  else if isPrintable c then String.singleton c
  else numericEscape c

/-- A text between quotes. -/
def quoted (s : String) : String := "\"" ++ String.join (s.toList.map quotedChar) ++ "\""

/-- A list of items between brackets. -/
def bracketed (items : List String) : String := "[" ++ ", ".intercalate items ++ "]"

end AsmLens.Text
