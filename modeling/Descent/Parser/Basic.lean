/-
Parsers.

A parser is a rule with a name. The name says how the parser was built and plays no
part in what it does.

The parsers here are those for single characters and texts, and those that only look.
A parser that is written by hand out of rules keeps bookmarks of its own.
-/
import Descent.Rule.Combinators
import Descent.Text.Quoted

set_option autoImplicit false

namespace Descent

open Text

/-- A named rule. -/
structure Parser (Γ : Scope) (α : Type) : Type 1 where
  name : String
  rule : Rule Γ α

namespace Parser

variable {Γ : Scope} {α : Type}

instance : Inhabited (Parser Γ α) := ⟨⟨"", default⟩⟩

/-- What a parser shows of itself: its name. -/
def describe (p : Parser Γ α) : String :=
  "Parser \x7b name: " ++ quoteText p.name ++ " \x7d"

/-- A parser by this name, written as a rule. -/
def ofRule (name : String) (r : Rule Γ α) : Parser Γ α :=
  ⟨name, .enclosed r⟩

/-- Any single character. -/
def anyChar : Parser Γ Char :=
  ⟨"AnyChar", .char⟩

/-- Exactly the character. -/
def char (expected : Char) : Parser Γ Char where
  name := "Char(" ++ quoteChar expected ++ ")"
  rule := do
    let c ← .peek
    if c == expected then .char else .fail (.otherChar expected c)

/-- One character of those listed, or any character when none is. -/
def charIn (expected : List Char) : Parser Γ Char where
  name := "CharIn([" ++ String.intercalate ", " (expected.map quoteChar) ++ "])"
  rule := do
    let c ← .peek
    if expected.isEmpty || expected.contains c then .char else .fail (.unlistedChar expected c)

/-- Exactly the text. -/
def literal (expected : String) : Parser Γ String :=
  ⟨"Literal(" ++ quoteText expected ++ ")", .literal expected⟩

/-- The text that the pattern finds. -/
def pattern (p : Pattern) : Parser Γ String :=
  ⟨"Pattern(" ++ quoteText p.source ++ ")", .matchPattern p⟩

/-- The end of the text. -/
def ending : Parser Γ Unit :=
  ⟨"Eof", .ending⟩

/-- The next character, not consumed. -/
def peek : Parser Γ Char :=
  ⟨"Peek", .peek⟩

/-- What is left, not consumed. -/
def rest : Parser Γ String :=
  ⟨"Rest", .rest⟩

/-- The value, with nothing read. -/
def ret (a : α) : Parser Γ α :=
  ⟨"Ret", .pure a⟩

/-- A failure with this reason. -/
def fail (reason : String) : Parser Γ α :=
  ⟨"Fail", .fail (.refusal reason)⟩

end Parser

end Descent
