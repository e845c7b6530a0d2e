/-
Quoted characters and texts.

A name may contain any character, and a reader has to see which. So a quoted form puts
quotes around it, a backslash before the quote and the backslash, a letter for the
common control characters, and the code in hexadecimal for every other character that
has no visible form of its own.
-/
import Descent.Text.Printable

set_option autoImplicit false

namespace Descent.Text

/-- The code of the character in hexadecimal, as an escape. -/
def codeEscape (c : Char) : String :=
  "\\u\x7b" ++ String.ofList (Nat.toDigits 16 c.toNat) ++ "\x7d"

/-- The character as it stands between quotes of the given kind. -/
def quotedChar (quote c : Char) : String :=
  if c == '\x00' then "\\0"
  else if c == '\t' then "\\t"
  else if c == '\r' then "\\r"
  else if c == '\n' then "\\n"
  else if c == '\\' || c == quote then "\\" ++ c.toString
  else if isExtender c || !isPrintable c then codeEscape c
  else c.toString

/-- A character in single quotes. -/
def quoteChar (c : Char) : String :=
  "'" ++ quotedChar '\'' c ++ "'"

/-- A text in double quotes. -/
def quoteText (text : String) : String :=
  "\"" ++ String.join (text.toList.map (quotedChar '"')) ++ "\""

end Descent.Text
