/-
The state of a run.

A run reads one text with one cursor, which it moves forwards as it consumes and back
when it gives up an attempt. Besides, it holds the last failure and the places that
were bookmarked on the way. The failure is a single slot: a new failure overwrites it,
a success leaves it alone.

The elementary operations are functions from a state to a `Run`. They end in one of
three ways: with a value, with a failure recorded in the slot, or with a fault, which
only an offset that lies inside a character can cause. The fourth ending belongs to
grammars that repeat or refer to themselves: a run that was given too few rounds is
`unfinished`, and says nothing about the text.
-/
import Descent.Text.Offset
import Descent.Text.Location
import Descent.Text.Blank
import Descent.Failure
import Descent.Pattern.Basic

set_option autoImplicit false

namespace Descent

open Text

/-- What a run reads, where it stands, how it last failed, and the places it keeps. -/
@[ext] structure State where
  /-- The whole text. -/
  text : List Char
  /-- The byte offset of the cursor. -/
  cursor : Nat := 0
  failure : Failure := {}
  /-- Places by name, the latest first. -/
  bookmarks : List (String × Nat) := []
deriving DecidableEq, Repr

/-- How a run ended. -/
inductive Run (α : Type) where
  /-- With a value. -/
  | done (value : α) (state : State)
  /-- Without one; the state holds the failure. -/
  | failed (state : State)
  /-- An offset lay inside a character, or past the end, where it had to name a place. -/
  | fault
  /-- The rounds allowed were used up. -/
  | unfinished
deriving Repr

/-- What can be run: a function from the state it starts in. -/
abbrev Behaviour (α : Type) : Type := State → Run α

namespace Run

variable {α β : Type}

/-- Goes on from a value. -/
def andThen (r : Run α) (next : α → Behaviour β) : Run β :=
  match r with
  | done a s => next a s
  | failed s => .failed s
  | fault => .fault
  | unfinished => .unfinished

/-- Goes on from a failure. -/
def orElse (r : Run α) (rescue : Behaviour α) : Run α :=
  match r with
  | failed s => rescue s
  | r => r

/-- Goes on from a value with its image. -/
def map (f : α → β) (r : Run α) : Run β :=
  r.andThen fun a s => .done (f a) s

end Run

namespace State

variable {α : Type}

/-- Before anything is read. -/
def start (text : String) : State where
  text := text.toList

/-- What lies ahead of the cursor, when the cursor names a place. -/
def ahead? (s : State) : Option (List Char) :=
  dropBytes s.cursor s.text

/-- Runs on what lies ahead. -/
def withAhead (s : State) (f : List Char → Run α) : Run α :=
  match s.ahead? with
  | some rest => f rest
  | none => .fault

/-- The cursor moved past `consumed`. -/
def advance (s : State) (consumed : List Char) : State :=
  { s with cursor := s.cursor + byteLength consumed }

/-- The slot overwritten by a failure at the cursor. -/
def record (s : State) (cause : Cause) : State :=
  { s with failure := .ofCause cause s.cursor }

/-- The last failure reported at `position` instead of where it happened. -/
def relocate (s : State) (position : Nat) : State :=
  { s with failure := { s.failure with position := position } }

/-- The last failure given another sentence. -/
def rephrase (s : State) (reason : String) : State :=
  { s with failure := { s.failure with reason := reason } }

/-! ## Elementary operations -/

/-- Fails here. -/
def fail (cause : Cause) : Behaviour α := fun s =>
  .failed (s.record cause)

/-- The whole text. -/
def wholeText : Behaviour String := fun s =>
  .done (String.ofList s.text) s

/-- The offset of the cursor. -/
def position : Behaviour Nat := fun s =>
  .done s.cursor s

/-- Nothing is left. -/
def isAtEnd (s : State) : Bool :=
  byteLength s.text ≤ s.cursor

/-- What is left. -/
def rest : Behaviour String := fun s =>
  s.withAhead fun rest => .done (String.ofList rest) s

/-- The character ahead, which stays there. -/
def peek : Behaviour Char := fun s =>
  s.withAhead fun
    | [] => fail .endOfText s
    | c :: _ => .done c s

/-- The character ahead, consumed. -/
def char : Behaviour Char := fun s =>
  (peek s).andThen fun c s => .done c (s.advance [c])

/-- Exactly the text `expected`. What is found instead is reported as so many
characters as were expected. -/
def literal (expected : String) : Behaviour String := fun s =>
  s.withAhead fun rest =>
    let wanted := expected.toList
    if wanted.isPrefixOf rest then
      .done expected (s.advance wanted)
    else if rest.length < wanted.length then
      fail (.otherText expected none) s
    else
      fail (.otherText expected (some (String.ofList (rest.take wanted.length)))) s

/-- The text that the pattern finds in what is left; the cursor moves by its length. -/
def matchPattern (pattern : Pattern) : Behaviour String := fun s =>
  s.withAhead fun rest =>
    match pattern.find? rest with
    | some found => .done (String.ofList found) (s.advance found)
    | none => fail (.noMatch pattern.source) s

/-- Nothing, where nothing is left. -/
def ending : Behaviour Unit := fun s =>
  s.withAhead fun
    | [] => .done () s
    | c :: _ => fail (.textLeft c) s

/-- The white space ahead, consumed. -/
def skipBlanks : Behaviour String := fun s =>
  s.withAhead fun rest =>
    let blanks := rest.takeWhile isBlank
    .done (String.ofList blanks) (s.advance blanks)

/-- Moves the cursor to an offset, which has to name a place. -/
def moveTo (position : Nat) : Behaviour Unit := fun s =>
  if IsPlace position s.text then .done () { s with cursor := position } else .fault

/-- Keeps the place of the cursor under a name. -/
def bookmark (name : String) : Behaviour Unit := fun s =>
  .done () { s with bookmarks := (name, s.cursor) :: s.bookmarks }

/-- The place kept under the name; the beginning when there is none. -/
def bookmarked (s : State) (name : String) : Nat :=
  (s.bookmarks.lookup name).getD 0

/-- Moves the cursor to the place kept under the name. -/
def returnTo (name : String) : Behaviour Unit := fun s =>
  moveTo (s.bookmarked name) s

/-- The last failure. -/
def lastFailure : Behaviour Failure := fun s =>
  .done s.failure s

/-- The line and column of an offset into the text. -/
def locate (offset : Nat) : Behaviour Location := fun s =>
  match Location.ofOffset? s.text offset with
  | some l => .done l s
  | none => .fault

end State

end Descent
