/-
Ways to combine parsers.

Each combinator does to the rules of its parts what the combinator of rules of the same
name does, and makes the name of the whole from the names of the parts. A definition
that refers to itself has the name of what it is defined as; its stand-in, which is
named before that is known, is called by a name of its own.
-/
import Descent.Parser.Basic

set_option autoImplicit false

namespace Descent.Parser

variable {Γ : Scope} {α β τ σ : Type}

/-- The value under a function. -/
def map (p : Parser Γ α) (f : α → β) : Parser Γ β :=
  ⟨"Map(" ++ p.name ++ ")", f <$> p.rule⟩

/-- Both values, one after the other. Not atomic. -/
def pair (p : Parser Γ α) (q : Parser Γ β) : Parser Γ (α × β) where
  name := "Then(" ++ p.name ++ ", " ++ q.name ++ ")"
  rule := do
    let a ← p.rule
    let b ← q.rule
    return (a, b)

/-- The parser, and then the one that its value selects. Not atomic. -/
def andThen (p : Parser Γ α) (next : α → Parser Γ β) : Parser Γ β :=
  ⟨"AndThen(" ++ p.name ++ ")", p.rule >>= fun a => (next a).rule⟩

/-- A value that passes the test, or else a failure behind it. -/
def filter (p : Parser Γ α) (accepts : α → Bool) (reason : String) : Parser Γ α :=
  ⟨"Filter(" ++ p.name ++ ")", p.rule.filter accepts reason⟩

/-- The same parser with one sentence for all its failures. -/
def rephrase (p : Parser Γ α) (reason : String) : Parser Γ α :=
  ⟨p.name, .rephrase reason p.rule⟩

/-- All or nothing: a failure is taken back and reported where the parser began. -/
def atomically (p : Parser Γ α) : Parser Γ α :=
  ⟨"Atomically(" ++ p.name ++ ")", .atomically p.rule⟩

/-- The value, or nothing with nothing consumed. -/
def tryParse (p : Parser Γ α) : Parser Γ (Option α) :=
  ⟨"TryParse(" ++ p.name ++ ")", p.rule.tryParse⟩

/-- Again and again until it fails. -/
def many (p : Parser Γ α) : Parser Γ (List α) :=
  ⟨"Many(" ++ p.name ++ ")", .many p.rule⟩

/-- The same, but at least one time. -/
def many1 (p : Parser Γ α) : Parser Γ (List α) :=
  ⟨"Many1(" ++ p.name ++ ")", p.rule.many1⟩

/-- The first alternative to match, or else the failure of the last. -/
def oneOf (alternatives : List (Parser Γ α)) : Parser Γ α where
  name := "OneOf(" ++ String.intercalate " | " (alternatives.map name) ++ ")"
  rule := .oneOf (alternatives.map rule)

/-- The first alternative to match, or else a failure that names them all. -/
def oneOfLabeled (alternatives : List (String × Parser Γ α)) : Parser Γ α where
  name := "OneOf(" ++ String.intercalate " | " (alternatives.map Prod.fst) ++ ")"
  rule := .oneOfLabeled (alternatives.map fun (label, p) => (label, p.rule))

/-- What stands between two others. Atomic. -/
def bracket (before : Parser Γ β) (after : Parser Γ σ) (inside : Parser Γ α) : Parser Γ α where
  name := "Bracket(" ++ before.name ++ ", " ++ inside.name ++ ", " ++ after.name ++ ")"
  rule := .bracket before.rule after.rule inside.rule

/-- Terms with separators between them, at least one term. Atomic. -/
def chain1 (term : Parser Γ τ) (separator : Parser Γ σ) : Parser Γ (Chain τ σ) :=
  ⟨"Chain1(" ++ term.name ++ ", " ++ separator.name ++ ")", .chain1 term.rule separator.rule⟩

/-- Terms with separators between them, if any. -/
def chain (term : Parser Γ τ) (separator : Parser Γ σ) : Parser Γ (Chain τ σ) :=
  ⟨"Chain(" ++ term.name ++ ", " ++ separator.name ++ ")", .chain term.rule separator.rule⟩

/-- The left fold of a chain that is not empty. -/
def chainLeft (term : Parser Γ τ) (separator : Parser Γ σ) (combine : τ → τ → σ → τ) :
    Parser Γ τ where
  name := "ChainL(" ++ term.name ++ ", " ++ separator.name ++ ")"
  rule := .chainLeft term.rule separator.rule combine

/-- The right fold of a chain that is not empty. -/
def chainRight (term : Parser Γ τ) (separator : Parser Γ σ) (combine : τ → τ → σ → τ) :
    Parser Γ τ where
  name := "ChainR(" ++ term.name ++ ", " ++ separator.name ++ ")"
  rule := .chainRight term.rule separator.rule combine

/-! ## Definitions that refer to themselves -/

/-- The stand-in for a definition that is still open. -/
def standIn (v : StandIn Γ α) : Parser Γ α :=
  ⟨"Recursive", .reference v⟩

/-- What `define` makes of a stand-in for it. -/
def recursive (define : Parser (α :: Γ) α → Parser (α :: Γ) α) : Parser Γ α :=
  let definition := define (standIn .here)
  ⟨definition.name, .recursive definition.rule⟩

/-- A parser with a stand-in that has outlived its definition. -/
def outlived (p : Parser (β :: Γ) α) : Parser Γ α :=
  ⟨p.name, .outlived p.rule⟩

end Descent.Parser
