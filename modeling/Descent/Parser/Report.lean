/-
Whole runs.

A whole run ends with a report: the value and what was left of the text, or an error.
The error is the last failure together with the line and the column that a reader needs
to find its place.
-/
import Descent.Parser.Combinators

set_option autoImplicit false

namespace Descent

open Text

/-- How a run failed, and where. -/
structure ParseError where
  kind : FailureKind
  reason : String
  /-- A byte offset into the text. -/
  position : Nat
  location : Location
deriving DecidableEq, Repr

/-- The error in one line. -/
def ParseError.render (e : ParseError) : String :=
  e.location.render ++ " " ++ e.reason

/-- What a run reports: an error, or a value and what was left. -/
abbrev Report (α : Type) : Type := Except ParseError (α × String)

/-- How a whole run ended. -/
inductive Verdict (α : Type) where
  /-- With a value; `rest` was left. -/
  | accepted (value : α) (rest : String)
  | rejected (error : ParseError)
  /-- An offset named no place. -/
  | fault
  /-- The limits were reached. -/
  | unfinished
deriving DecidableEq, Repr

namespace Verdict

variable {α : Type}

/-- The verdict of a run that reports. -/
def ofRun : Run (Report α) → Verdict α
  | .done (.ok (a, rest)) _ => accepted a rest
  | .done (.error e) _ => rejected e
  | .failed _ | .fault => fault
  | .unfinished => unfinished

/-- The value, if there is one. -/
def value? : Verdict α → Option α
  | accepted a _ => some a
  | _ => none

def isAccepted (v : Verdict α) : Bool :=
  v.value?.isSome

end Verdict

namespace Rule

variable {Γ : Scope} {α : Type}

/-- Runs the rule and reports; the state is left where the rule stopped. -/
def report (r : Rule Γ α) : Rule Γ (Report α) := do
  match ← attempt r with
  | some a =>
    let rest ← rest
    return .ok (a, rest)
  | none =>
    let failure ← operation .lastFailure
    let location ← operation (.locate failure.position)
    return .error ⟨failure.kind, failure.reason, failure.position, location⟩

/-- With white space before it, if that is allowed. -/
def afterBlanks (blanks : Bool) (r : Rule Γ α) : Rule Γ α := do
  if blanks then
    let _ ← skipBlanks
  r

/-- With nothing after it but white space, if that is allowed. -/
def toEnd (blanks : Bool) (r : Rule Γ α) : Rule Γ α := do
  let a ← r
  afterBlanks blanks ending
  return a

/-- The verdict on a text, when no stand-in is defined. -/
def verdict (r : Rule Γ (Report α)) (limits : Limits) (text : String) : Verdict α :=
  .ofRun (r.run limits .undefined (.start text))

end Rule

namespace Parser

variable {Γ : Scope} {α : Type}

/-- The report of a run from where the state stands. -/
def report (p : Parser Γ α) (blanks : Bool) : Rule Γ (Report α) :=
  (p.rule.afterBlanks blanks).report

/-- Runs on a text from its beginning. Where `blanks` is set, leading white space is
skipped first. -/
def parse (p : Parser Γ α) (limits : Limits) (text : String) (blanks : Bool) :
    Verdict α :=
  (p.report blanks).verdict limits text

/-- Like `parse`, but nothing may be left. Where `blanks` is set, white space before and
after is allowed. -/
def parseToEnd (p : Parser Γ α) (limits : Limits) (text : String) (blanks : Bool) :
    Verdict α :=
  ((p.rule.toEnd blanks).afterBlanks blanks).report.verdict limits text

end Parser

end Descent
