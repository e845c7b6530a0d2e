/-
What combining rules does to runs.

A rule denotes a behaviour: a function from the state a run starts in to how the run
ends. This file has the operators on behaviours that the combinators of rules denote.
Three of them differ only in how much of a failed attempt they take back. `attempt`
takes nothing back, `rewind` the cursor, `atomically` the cursor and the place that the
failure is reported at.

Repetition and self-reference are bounded here by a number of rounds, so that every
behaviour is a total function. A run that needs more is `unfinished`.
-/
import Descent.State

set_option autoImplicit false

namespace Descent.Behaviour

variable {α β : Type}

/-- Ends at once, with the value. -/
def pure (a : α) : Behaviour α := fun s =>
  .done a s

/-- One after the other. Where the second fails, what the first consumed stays consumed. -/
def andThen (b : Behaviour β) (next : β → Behaviour α) : Behaviour α := fun s =>
  (b s).andThen next

/-- Turns a failure into the absence of a value, and takes nothing back. -/
def attempt (b : Behaviour α) : Behaviour (Option α) := fun s =>
  ((b s).map some).orElse fun s => .done none s

/-- On failure, takes the cursor back to where it was. -/
def rewind (b : Behaviour α) : Behaviour α := fun s =>
  (b s).orElse fun t => (State.moveTo s.cursor t).andThen fun _ t => .failed t

/-- On failure, takes the cursor back to where it was and reports the failure there. -/
def atomically (b : Behaviour α) : Behaviour α := fun s =>
  (b s).orElse fun t =>
    (State.moveTo s.cursor t).andThen fun _ t => .failed (t.relocate s.cursor)

/-- Goes on from a value in one way, and from a failure in another, from where it was left. -/
def handle (b : Behaviour β) (next : β → Behaviour α) (rescue : Behaviour α) : Behaviour α :=
  fun s =>
    match b s with
    | .done a t => next a t
    | .failed t => rescue t
    | .fault => .fault
    | .unfinished => .unfinished

/-- Fails once more with the failure that the slot holds. -/
def raise : Behaviour α := fun s =>
  .failed s

/-- Gives a failure another sentence, and leaves its kind and place. -/
def rephrase (reason : String) (b : Behaviour α) : Behaviour α := fun s =>
  (b s).orElse fun t => .failed (t.rephrase reason)

/-- Again and again until it fails, for at most so many rounds. The failing attempt is
taken back; the slot keeps its failure. -/
def repeatedly (b : Behaviour α) : Nat → Behaviour (List α)
  | 0, _ => .unfinished
  | rounds + 1, s =>
    match b s with
    | .done a t => (repeatedly b rounds t).map (a :: ·)
    | .failed t => (State.moveTo s.cursor t).map fun _ => []
    | .fault => .fault
    | .unfinished => .unfinished

/-- Step after step with a value carried along, until a step ends with the result, for at
most so many rounds. A step that fails ends it. -/
def iterate (step : β → Behaviour (β ⊕ α)) : Nat → β → Behaviour α
  | 0, _, _ => .unfinished
  | rounds + 1, b, s =>
    (step b s).andThen fun
      | .inl b => iterate step rounds b
      | .inr a => pure a

/-- On a copy of the state, of which only the bookmarks come back. The value is that of
the run, if it has one, together with the copy as the run left it. -/
def speculate (b : Behaviour α) : Behaviour (Option α × State) := fun s =>
  (attempt b s).andThen fun a t => .done (a, t) { s with bookmarks := t.bookmarks }

/-- With bookmarks of its own. -/
def enclosed (b : Behaviour α) : Behaviour α := fun s =>
  let back (t : State) : State := { t with bookmarks := s.bookmarks }
  ((b { s with bookmarks := [] }).andThen fun a t => .done a (back t)).orElse fun t =>
    .failed (back t)

/-- A behaviour that refers to itself, down to a given depth of nested references. -/
def fixed (define : Behaviour α → Behaviour α) : Nat → Behaviour α
  | 0, _ => .unfinished
  | depth + 1, s => define (fixed define depth) s

end Descent.Behaviour
