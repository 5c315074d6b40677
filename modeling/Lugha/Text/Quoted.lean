import Lugha.Text.Visible

/-!
# Texts for inspection

A text between quotes in which quotes, backslashes and characters that cannot be seen
are escaped.
-/

namespace Lugha.Text

/-- The digits of a number in base sixteen, in lower case. -/
def hex (n : Nat) : String := String.ofList (Nat.toDigits 16 n)

/-- The escape of a character by its number. -/
def numbered (c : Char) : String := "\\u\x7b" ++ hex c.toNat ++ "\x7d"

/-- A character of a text between quotes. -/
def inspectChar (c : Char) : String :=
  if c = '"' then "\\\""
  else if c = '\\' then "\\\\"
  else if c = '\n' then "\\n"
  else if c = '\r' then "\\r"
  else if c = '\t' then "\\t"
  else if c = '\x00' then "\\0"
  else if isVisible c then String.singleton c
  else numbered c

/-- A text between quotes. -/
def inspect (s : String) : String :=
  "\"" ++ String.join (s.toList.map inspectChar) ++ "\""

end Lugha.Text
