/-
Rules.

A rule says how to read a part of a text. Rules are data: the elementary operations on
a state, ways to combine rules, and references to rules that are still being defined.
So one can reason about all rules by induction on how they are built, and running one
is a function by recursion on it (`Rule.run`).

A rule that refers to itself is written with a *stand-in* for itself. The stand-ins in
scope are a list of types, one for each definition that is open, the innermost first,
and a reference is a place in that list. A rule without open definitions has the empty
list.

A rule written by hand may go on from a value in one way and from a failure in another
(`handle`), fail once more with a failure that it was given (`raise`), and carry a value
round a loop (`iterate`).

What a stand-in does is given by an environment. In its own definition it does what the
whole definition does. A stand-in whose definition does not exist yet, or that outlived
it, does nothing but fail where it stands.
-/
import Descent.Rule.Behaviour

set_option autoImplicit false

namespace Descent

open Text

/-! ## Stand-ins -/

/-- The definitions that are open, by the type of what they read, the innermost first. -/
abbrev Scope : Type 1 := List Type

/-- A stand-in in scope. -/
inductive StandIn : Scope → Type → Type 1 where
  /-- That of the innermost definition. -/
  | here {α : Type} {Γ : Scope} : StandIn (α :: Γ) α
  /-- That of a definition further out. -/
  | outer {α β : Type} {Γ : Scope} (v : StandIn Γ α) : StandIn (β :: Γ) α

/-- What each stand-in does; nothing for one that is undefined. -/
def Environment (Γ : Scope) : Type 1 :=
  (α : Type) → StandIn Γ α → Option (Behaviour α)

namespace Environment

variable {α : Type} {Γ : Scope}

/-- No stand-in is defined. -/
def undefined : Environment Γ :=
  fun _ _ => none

/-- One more stand-in. -/
def extend (ρ : Environment Γ) (b : Option (Behaviour α)) : Environment (α :: Γ)
  | _, .here => b
  | _, .outer v => ρ _ v

end Environment

/-! ## Operations -/

/-- The elementary operations on a state, by the type of their value. -/
inductive Operation : Type → Type where
  | peek : Operation Char
  | char : Operation Char
  | literal (expected : String) : Operation String
  | matchPattern (pattern : Pattern) : Operation String
  | ending : Operation Unit
  | skipBlanks : Operation String
  | rest : Operation String
  | wholeText : Operation String
  | position : Operation Nat
  | isAtEnd : Operation Bool
  | moveTo (offset : Nat) : Operation Unit
  | bookmark (name : String) : Operation Unit
  | returnTo (name : String) : Operation Unit
  | lastFailure : Operation Failure
  | locate (offset : Nat) : Operation Location

/-- What an operation does. -/
def Operation.run {α : Type} : Operation α → Behaviour α
  | .peek => State.peek
  | .char => State.char
  | .literal expected => State.literal expected
  | .matchPattern pattern => State.matchPattern pattern
  | .ending => State.ending
  | .skipBlanks => State.skipBlanks
  | .rest => State.rest
  | .wholeText => State.wholeText
  | .position => State.position
  | .isAtEnd => fun s => .done s.isAtEnd s
  | .moveTo offset => State.moveTo offset
  | .bookmark name => State.bookmark name
  | .returnTo name => State.returnTo name
  | .lastFailure => State.lastFailure
  | .locate offset => State.locate offset

/-! ## Rules -/

/-- A rule for reading an `α`, with stand-ins for the open definitions `Γ`. -/
inductive Rule : Scope → Type → Type 1 where
  /-- Reads nothing. -/
  | pure {Γ : Scope} {α : Type} (a : α) : Rule Γ α
  /-- Two rules in sequence, the second chosen by what the first read. -/
  | bind {Γ : Scope} {α β : Type} (r : Rule Γ β) (next : β → Rule Γ α) : Rule Γ α
  /-- Fails. -/
  | fail {Γ : Scope} {α : Type} (cause : Cause) : Rule Γ α
  | operation {Γ : Scope} {α : Type} (o : Operation α) : Rule Γ α
  /-- See `Behaviour.attempt`. -/
  | attempt {Γ : Scope} {α : Type} (r : Rule Γ α) : Rule Γ (Option α)
  /-- See `Behaviour.rewind`. -/
  | rewind {Γ : Scope} {α : Type} (r : Rule Γ α) : Rule Γ α
  /-- See `Behaviour.atomically`. -/
  | atomically {Γ : Scope} {α : Type} (r : Rule Γ α) : Rule Γ α
  /-- See `Behaviour.handle`. -/
  | handle {Γ : Scope} {α β : Type} (r : Rule Γ β) (next : β → Rule Γ α) (rescue : Rule Γ α) :
      Rule Γ α
  /-- See `Behaviour.raise`. It has a meaning only where a failure is at hand. -/
  | raise {Γ : Scope} {α : Type} : Rule Γ α
  /-- See `Behaviour.rephrase`. -/
  | rephrase {Γ : Scope} {α : Type} (reason : String) (r : Rule Γ α) : Rule Γ α
  /-- See `Behaviour.repeatedly`. -/
  | many {Γ : Scope} {α : Type} (r : Rule Γ α) : Rule Γ (List α)
  /-- See `Behaviour.iterate`. -/
  | iterate {Γ : Scope} {α β : Type} (step : β → Rule Γ (β ⊕ α)) (b : β) : Rule Γ α
  /-- See `Behaviour.speculate`. -/
  | speculate {Γ : Scope} {α : Type} (r : Rule Γ α) : Rule Γ (Option α × State)
  /-- See `Behaviour.enclosed`. -/
  | enclosed {Γ : Scope} {α : Type} (r : Rule Γ α) : Rule Γ α
  /-- A definition with a stand-in for itself. -/
  | recursive {Γ : Scope} {α : Type} (body : Rule (α :: Γ) α) : Rule Γ α
  /-- A stand-in. -/
  | reference {Γ : Scope} {α : Type} (v : StandIn Γ α) : Rule Γ α
  /-- A rule with a stand-in that has outlived its definition. -/
  | outlived {Γ : Scope} {α β : Type} (r : Rule (β :: Γ) α) : Rule Γ α

/-- How far a run may go before it is given up. -/
structure Limits where
  /-- How deep the references to one definition may nest. -/
  depth : Nat
  /-- How many attempts a repetition may make, and how many steps a loop. -/
  rounds : Nat
deriving DecidableEq, Repr

namespace Rule

instance {Γ : Scope} {α : Type} : Inhabited (Rule Γ α) :=
  ⟨fail .noAlternatives⟩

/-- What a rule does. -/
def run (limits : Limits) : {Γ : Scope} → {α : Type} → Rule Γ α → Environment Γ → Behaviour α
  | _, _, pure a, _ => Behaviour.pure a
  | _, _, bind r next, ρ => Behaviour.andThen (r.run limits ρ) fun a => (next a).run limits ρ
  | _, _, fail cause, _ => State.fail cause
  | _, _, operation o, _ => o.run
  | _, _, attempt r, ρ => Behaviour.attempt (r.run limits ρ)
  | _, _, rewind r, ρ => Behaviour.rewind (r.run limits ρ)
  | _, _, atomically r, ρ => Behaviour.atomically (r.run limits ρ)
  | _, _, handle r next rescue, ρ =>
    Behaviour.handle (r.run limits ρ) (fun a => (next a).run limits ρ) (rescue.run limits ρ)
  | _, _, raise, _ => Behaviour.raise
  | _, _, rephrase reason r, ρ => Behaviour.rephrase reason (r.run limits ρ)
  | _, _, many r, ρ => Behaviour.repeatedly (r.run limits ρ) limits.rounds
  | _, _, iterate step b, ρ =>
    Behaviour.iterate (fun b => (step b).run limits ρ) limits.rounds b
  | _, _, speculate r, ρ => Behaviour.speculate (r.run limits ρ)
  | _, _, enclosed r, ρ => Behaviour.enclosed (r.run limits ρ)
  | _, _, recursive body, ρ =>
    Behaviour.fixed (fun self => body.run limits (ρ.extend (some self))) limits.depth
  | _, _, reference v, ρ =>
    match ρ _ v with
    | some b => b
    | none => State.fail .undefined
  | _, _, outlived r, ρ => r.run limits (ρ.extend none)

end Rule

end Descent
