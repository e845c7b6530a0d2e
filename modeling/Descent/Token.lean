/-
Tokens.

Parsers for what most notations share: white space, numbers, truth values and quoted
texts. Each is a pattern, and most give the text that the pattern finds a meaning.
-/
import Descent.Parser.Combinators
import Descent.Number.Numeral

set_option autoImplicit false

namespace Descent.Token

variable {Γ : Scope}

/-! ## Patterns -/

/-- Any run of white space. -/
def blanksPattern : Pattern := .ofSource "\\s*" (by decide)

/-- A run of white space that is not empty. -/
def blanks1Pattern : Pattern := .ofSource "\\s+" (by decide)

/-- A sign perhaps, and ASCII digits. -/
def integerPattern : Pattern := .ofSource "[+\\-]?[0-9]+" (by decide)

/-- A sign perhaps, digits without a leading zero, a fraction perhaps, and a power of ten
perhaps. -/
def decimalPattern : Pattern :=
  .ofSource "[+\\-]?(?:0|[1-9]\\d*)(?:\\.\\d+)?(?:[eE][+\\-]?\\d+)?" (by decide)

/-- One of the two truth values as a word of its own. -/
def booleanPattern : Pattern := .ofSource "(?:true|false)\\b" (by decide)

/-- A text in double quotes, where a backslash stands only before a quote, a backslash or
one of four letters. -/
def doubleQuotedPattern : Pattern :=
  .ofSource "\"[^\\\\\"]*(?:\\\\[\"nrtb\\\\][^\\\\\"]*)*\"" (by decide)

/-- The same in single quotes. -/
def singleQuotedPattern : Pattern :=
  .ofSource "'[^\\\\']*(?:\\\\['nrtb\\\\][^\\\\']*)*'" (by decide)

/-! ## Quoted texts -/

/-- The character that a letter behind a backslash stands for. -/
def escaped : Char → Char
  | 'n' => '\n'
  | 'r' => '\r'
  | 't' => '\t'
  | 'b' => '\x08'
  | c => c

/-- The text with its escapes replaced by what they stand for, from left to right. -/
def unescape : List Char → List Char
  | [] => []
  | ['\\'] => ['\\']
  | '\\' :: c :: cs => escaped c :: unescape cs
  | c :: cs => c :: unescape cs

/-- What stands between the first and the last character. -/
def inner (cs : List Char) : List Char :=
  cs.tail.dropLast

/-- A text in quotes. -/
def quoted (name : String) (pattern : Pattern) : Parser Γ String where
  name := name
  rule := do
    let found ← .matchPattern pattern
    return String.ofList (unescape (inner found.toList))

/-! ## Parsers -/

/-- Any run of white space. -/
def blanks : Parser Γ String :=
  .pattern blanksPattern

/-- A run of white space that is not empty. -/
def blanks1 : Parser Γ String :=
  .pattern blanks1Pattern

/-- A 64-bit integer. A numeral out of range is a failure behind it. -/
def integer : Parser Γ Int64 where
  name := "Integer"
  rule := do
    let numeral ← .matchPattern integerPattern
    match Numeral.int64? numeral.toList with
    | some n => return n
    | none => .fail (.integerRange numeral)

/-- A decimal number, rounded to binary64. A numeral without a finite value is a failure
behind it. -/
def decimal : Parser Γ Binary64 where
  name := "Decimal"
  rule := do
    let numeral ← .matchPattern decimalPattern
    match Numeral.finite? numeral.toList with
    | some x => return x
    | none => .fail (.decimalRange numeral)

/-- A truth value. -/
def boolean : Parser Γ Bool where
  name := "Boolean"
  rule := do
    let word ← .matchPattern booleanPattern
    return word == "true"

/-- A text in double quotes. -/
def doubleQuoted : Parser Γ String :=
  quoted "DoubleQuotedString" doubleQuotedPattern

/-- A text in single quotes. -/
def singleQuoted : Parser Γ String :=
  quoted "SingleQuotedString" singleQuotedPattern

end Descent.Token
