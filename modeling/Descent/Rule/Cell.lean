/-
Cells.

A definition that refers to itself is kept in a cell. The cell is made first, so that there can
be a stand-in, which knows the cell, before there is anything in it. Once the definition is
finished it is put in, and stays there. The parser that is handed out holds the cell, and each
copy of it does so too. A stand-in does not: it occurs in what is in the cell, which would then
never go away. With the last holder the cell is gone, whatever stand-ins are left.

A stand-in looks into the cell each time that it is run, so what it does depends on when that is.
-/
import Descent.Rule.Basic

set_option autoImplicit false

namespace Descent

/-- A cell, as one that is made has it. -/
structure Cell (δ : Type 1) where
  /-- The definition, once it is finished. -/
  content : Option δ := none
  /-- How many hold the cell; at first the one who is making the definition. -/
  holders : Nat := 1

namespace Cell

variable {δ : Type 1}

/-- What can happen to a cell. -/
inductive Event (δ : Type 1) where
  /-- A definition is put in. -/
  | fill (definition : δ)
  /-- A holder is copied. -/
  | copy
  /-- A holder is given up. -/
  | release

/-- What becomes of the cell. What is in it is never replaced, and where nobody holds it there is
no holder to copy. -/
def after (c : Cell δ) : Event δ → Cell δ
  | .fill definition => { c with content := c.content.or (some definition) }
  | .copy => { c with holders := if c.holders = 0 then 0 else c.holders + 1 }
  | .release => { c with holders := c.holders - 1 }

/-- The cell after all that happened to it since it was made. -/
def life (events : List (Event δ)) : Cell δ :=
  events.foldl after {}

/-- What is found in the cell by one who does not hold it. -/
def look? (c : Cell δ) : Option δ :=
  if c.holders = 0 then none else c.content

variable {Γ : Scope} {α : Type}

/-- What a stand-in does with the cell that it knows, down to a given depth of nested references.
It runs what it finds, in which it occurs itself, and refuses where it finds nothing. -/
def ask (c : Cell (Rule (α :: Γ) α)) (limits : Limits) (ρ : Environment Γ) : Nat → Behaviour α
  | 0 =>
    match c.look? with
    | some _ => fun _ => .unfinished
    | none => State.fail .undefined
  | depth + 1 =>
    match c.look? with
    | some body => body.run limits (ρ.extend (some (c.ask limits ρ depth)))
    | none => State.fail .undefined

end Cell

end Descent
