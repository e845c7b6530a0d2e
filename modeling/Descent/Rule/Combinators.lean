/-
Ways to combine rules.

Rules form a monad, so a rule for a sequence is written as its parts one after another.
A sequence is not atomic: where a later part fails, the cursor stays where it was left.
The combinators below backtrack. They are built from the few that `Rule` has, and what
each of them takes back on failure is what it is made of.
-/
import Descent.Rule.Basic
import Descent.Chain

set_option autoImplicit false

namespace Descent.Rule

variable {Γ : Scope} {α β τ σ : Type}

instance : Monad (Rule Γ) where
  pure := pure
  bind := bind

/-! ## Operations -/

/-- The next character, which stays there. -/
def peek : Rule Γ Char := operation .peek

/-- The next character. -/
def char : Rule Γ Char := operation .char

/-- Exactly the text. -/
def literal (expected : String) : Rule Γ String := operation (.literal expected)

/-- The text that the pattern finds. -/
def matchPattern (pattern : Pattern) : Rule Γ String := operation (.matchPattern pattern)

/-- The end of the text. -/
def ending : Rule Γ Unit := operation .ending

/-- White space, if any. -/
def skipBlanks : Rule Γ String := operation .skipBlanks

/-- What is left, which stays there. -/
def rest : Rule Γ String := operation .rest

/-! ## Attempts and choices -/

/-- The value of the rule, or nothing, with nothing consumed. -/
def tryParse (r : Rule Γ α) : Rule Γ (Option α) :=
  attempt (atomically r)

/-- The first rule, or else the second from the same place. -/
def orElse (r s : Rule Γ α) : Rule Γ α := do
  match ← attempt (rewind r) with
  | some a => return a
  | none => s

/-- The first of the alternatives to match, each tried from the same place. Where none
does, the failure is that of the last. -/
def oneOf : List (Rule Γ α) → Rule Γ α
  | [] => fail .noAlternatives
  | [r] => rewind r
  | r :: rs => orElse r (oneOf rs)

/-- Like `oneOf`, but the failure names the labels of all alternatives and is reported
where they began. -/
def oneOfLabeled (alternatives : List (String × Rule Γ α)) : Rule Γ α :=
  alternatives.foldr (fun alternative others => orElse alternative.2 others)
    (fail (.noneOf (alternatives.map Prod.fst)))

/-! ## Sequences -/

/-- At least one time. Consumes nothing on failure. -/
def many1 (r : Rule Γ α) : Rule Γ (List α) :=
  atomically do
    let items ← many r
    if items.isEmpty then fail .noElements else return items

/-- What stands between the two others. Consumes nothing on failure. -/
def bracket (before : Rule Γ β) (after : Rule Γ σ) (inside : Rule Γ α) : Rule Γ α :=
  atomically do
    let _ ← before
    let a ← inside
    let _ ← after
    return a

/-- A value that passes the test. Otherwise the failure is reported behind the value,
which stays consumed. -/
def filter (r : Rule Γ α) (accepts : α → Bool) (reason : String) : Rule Γ α := do
  let a ← r
  if accepts a then return a else fail (.refusal reason)

/-! ## Chains -/

/-- A term, and then separators and terms in turn. Consumes nothing on failure. A
separator without a term behind it is left unconsumed. -/
def chain1 (term : Rule Γ τ) (separator : Rule Γ σ) : Rule Γ (Chain τ σ) :=
  atomically do
    match ← attempt term with
    | none => fail .noTerms
    | some head =>
      let tail ← many do
        let s ← separator
        let t ← term
        return (s, t)
      return .links head tail

/-- Like `chain1`, but the empty chain where that fails. -/
def chain (term : Rule Γ τ) (separator : Rule Γ σ) : Rule Γ (Chain τ σ) := do
  return (← tryParse (chain1 term separator)).getD .empty

/-- The left fold of a chain. -/
def chainLeft (term : Rule Γ τ) (separator : Rule Γ σ) (combine : τ → τ → σ → τ) :
    Rule Γ τ := do
  match (← chain term separator).foldLeft combine with
  | some t => return t
  | none => fail .noTerms

/-- The right fold of a chain. -/
def chainRight (term : Rule Γ τ) (separator : Rule Γ σ) (combine : τ → τ → σ → τ) :
    Rule Γ τ := do
  match (← chain term separator).foldRight combine with
  | some t => return t
  | none => fail .noTerms

end Descent.Rule
