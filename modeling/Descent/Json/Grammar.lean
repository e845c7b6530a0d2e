/-
Reading JSON.

A JSON value is one of six, in this order: a number, a string, a truth value, null, an
object, an array. White space may stand around punctuation and around the whole text. A
value inside a value is read by the same definition, so the depth of a text bounds the
depth of the reading: one more than its opening brackets and braces always suffices, and
no repetition makes more attempts than there are characters, and one (`limitsFor`).
-/
import Descent.Parser.Report
import Descent.Token
import Descent.Json.Value

set_option autoImplicit false

namespace Descent.Json

open Text

variable {Γ : Scope}

/-- The symbol, with any white space around it. -/
def punctuation (symbol : String) : Parser Γ Unit where
  name := "Punctuation(" ++ quoteText symbol ++ ")"
  rule := do
    let _ ← .skipBlanks
    let _ ← .literal symbol
    let _ ← .skipBlanks
    return ()

/-- An array of values. -/
def array (value : Parser Γ Value) : Parser Γ Value :=
  (Parser.bracket (punctuation "[") (punctuation "]") (value.chain (punctuation ","))).map
    fun items => .array items.terms

/-- A key and a value. -/
def member (value : Parser Γ Value) : Parser Γ (String × Value) where
  name := "Parser"
  rule := do
    let key ← Token.doubleQuoted.rule
    let _ ← (punctuation ":").rule
    let v ← value.rule
    return (key, v)

/-- An object of members. -/
def object (value : Parser Γ Value) : Parser Γ Value :=
  (Parser.bracket (punctuation "\x7b") (punctuation "\x7d")
    ((member value).chain (punctuation ","))).map fun members => .object members.terms

/-- A value, given how to read the values inside it. -/
def valueOf (value : Parser Γ Value) : Parser Γ Value :=
  .oneOfLabeled [
    ("a number", Token.decimal.map .number),
    ("a string", Token.doubleQuoted.map .string),
    ("a boolean", Token.boolean.map .bool),
    ("null", (Parser.literal "null").map fun _ => .null),
    ("an object", object value),
    ("an array", array value)]

/-- Any JSON value. -/
def value : Parser Γ Value :=
  .recursive valueOf

/-- Limits that no reading of the text as JSON reaches. -/
def limitsFor (text : String) : Limits where
  depth := text.toList.countP (fun c => c == '[' || c == '\x7b') + 1
  rounds := text.toList.length + 1

/-- Reads a text as one JSON value, with white space before and after it allowed. -/
def parse (text : String) : Verdict Value :=
  (value : Parser [] Value).parseToEnd (limitsFor text) text true

end Descent.Json
