/-
Why a run did not match.

Every failure is of one of seven kinds, and every one is recoverable: something else
may still match at the same place. A failure is born with a *cause*, which fixes both
its kind and the sentence that tells a reader what was expected and what was found.
What a run keeps of it is that kind, that sentence, and the place.
-/

set_option autoImplicit false

namespace Descent

/-- What kind of mismatch a failure was. -/
inductive FailureKind where
  /-- A character was wanted and the text had ended. -/
  | unexpectedEnd
  /-- A given text or character was wanted and something else was found. -/
  | literalMismatch
  /-- A pattern was wanted and did not match. -/
  | patternMismatch
  /-- The end was wanted and the text went on. -/
  | expectedEnd
  /-- The grammar's author said no. -/
  | refused
  /-- A choice had no alternative that matched. -/
  | noAlternativeMatched
  /-- A repetition that needs an element had none. -/
  | emptyRepetition
deriving DecidableEq, Repr

namespace FailureKind

/-- The kind in words. -/
def describe : FailureKind → String
  | unexpectedEnd => "unexpected end of input"
  | literalMismatch => "literal mismatch"
  | patternMismatch => "pattern mismatch"
  | expectedEnd => "expected end of input"
  | refused => "failure"
  | noAlternativeMatched => "no alternative matched"
  | emptyRepetition => "empty repetition"

end FailureKind

/-! ## Causes -/

/-- What went wrong, with what the sentence about it needs. -/
inductive Cause where
  /-- A character was wanted at the end of the text. -/
  | endOfText
  /-- `expected` was wanted; `actual` is as many characters of what stood there, or
  nothing when fewer were left. -/
  | otherText (expected : String) (actual : Option String)
  /-- One character was wanted and another found. -/
  | otherChar (expected actual : Char)
  /-- One character of several was wanted and another found. -/
  | unlistedChar (expected : List Char) (actual : Char)
  /-- The pattern with this source did not match. -/
  | noMatch (source : String)
  /-- The text goes on, with this character. -/
  | textLeft (next : Char)
  /-- The grammar's author gave this reason. -/
  | refusal (reason : String)
  /-- A choice between no alternatives. -/
  | noAlternatives
  /-- None of the alternatives that carry these labels matched. -/
  | noneOf (labels : List String)
  /-- A repetition without elements. -/
  | noElements
  /-- A chain without terms. -/
  | noTerms
  /-- The definition that a stand-in refers to does not exist, or no longer does. -/
  | undefined
  /-- The numeral denotes no 64-bit integer. -/
  | integerRange (numeral : String)
  /-- The numeral denotes no finite number. -/
  | decimalRange (numeral : String)
deriving DecidableEq, Repr

namespace Cause

/-- The kind of failure that the cause brings about. -/
def kind : Cause → FailureKind
  | endOfText => .unexpectedEnd
  | otherText .. | otherChar .. | unlistedChar .. => .literalMismatch
  | noMatch _ => .patternMismatch
  | textLeft _ => .expectedEnd
  | refusal _ | undefined | integerRange _ | decimalRange _ => .refused
  | noAlternatives | noneOf _ => .noAlternativeMatched
  | noElements | noTerms => .emptyRepetition

/-- The sentence that a reader is given. -/
def message : Cause → String
  | endOfText => "Expected character, but got EOF."
  | otherText expected (some actual) => "Expected '" ++ expected ++ "', but got '" ++ actual ++ "'."
  | otherText expected none => "Expected '" ++ expected ++ "', but got EOF."
  | otherChar expected actual =>
    "Expected '" ++ expected.toString ++ "', but got '" ++ actual.toString ++ "'."
  | unlistedChar expected actual =>
    "Expected one of " ++ String.intercalate ", " (expected.map Char.toString) ++ ", but got '" ++
      actual.toString ++ "'."
  | noMatch source => "Expected pattern '" ++ source ++ "', but there was no match."
  | textLeft next => "Expected EOF, but got '" ++ next.toString ++ "'."
  | refusal reason => reason
  | noAlternatives => "Expected one of nothing, but there were no alternatives."
  | noneOf labels =>
    "Expected one of " ++ String.intercalate ", " labels ++ ", but none of them matched."
  | noElements => "Expected at least one element, but got none."
  | noTerms => "Chain did not match any elements."
  | undefined => "Recursive parser was used outside of its definition."
  | integerRange numeral =>
    "Expected a 64-bit integer, but '" ++ numeral ++ "' is outside its representable range."
  | decimalRange numeral =>
    "Expected a decimal number, but '" ++ numeral ++ "' is outside its representable range."

end Cause

/-! ## What a run keeps -/

/-- The last failure of a run. A run that has not failed yet holds the default. -/
structure Failure where
  kind : FailureKind := .refused
  reason : String := ""
  /-- A byte offset into the text. -/
  position : Nat := 0
deriving DecidableEq, Repr

namespace Failure

/-- The failure that the cause brings about at `position`. -/
def ofCause (cause : Cause) (position : Nat) : Failure where
  kind := cause.kind
  reason := cause.message
  position := position

end Failure

end Descent
