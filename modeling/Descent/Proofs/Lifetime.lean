/-
When a stand-in finds its definition.

A cell goes through three stages, in this order and with the second one left out at will: nothing
has been put in, something has, nobody holds it any more (`Cell.stage_after`). A stand-in finds
the definition in the second stage only, and then it does what the finished parser does; in the
other two it refuses. These are the two things that a stand-in of a rule can do, that of an open
definition and that of one which has outlived its definition. So beside a cell a parser does, at
any time, what one of these two does (`Parser.run_beside_cell`).
-/
import Descent.Rule.Cell
import Descent.Proofs.Unfolding

set_option autoImplicit false

namespace Descent

namespace Cell

variable {δ : Type 1} {c : Cell δ}

/-! ## Stages -/

/-- The stages of a cell. -/
inductive Stage where
  | unset
  | set
  | dropped
deriving DecidableEq

/-- The stage that the cell is in. Once nobody holds it, what is in it does not matter. -/
def stage (c : Cell δ) : Stage :=
  if c.holders = 0 then .dropped else if c.content.isSome then .set else .unset

/-- The stages that can still follow. -/
def Stage.Precedes : Stage → Stage → Prop
  | .unset, _ => True
  | .set, next => next ≠ .unset
  | .dropped, next => next = .dropped

/-- The last stage is told by the holders alone, as a cell without holders is gone even if it was
never filled. -/
theorem stage_eq_dropped_iff : c.stage = .dropped ↔ c.holders = 0 := by
  unfold stage
  split
  · simpa
  · split <;> simpa

/-- Nothing is found in a cell that is not set: it is empty in the first stage, and in the last one
what was in it has gone with it. -/
theorem look?_of_stage_ne (h : c.stage ≠ .set) : c.look? = none := by
  unfold stage at h
  unfold look?
  split at h
  · next gone => rw [if_pos gone]
  · next held =>
    rw [if_neg held]
    split at h
    · exact absurd rfl h
    · next empty => simpa using empty

/-- In the second stage what was put in is found, as somebody still holds the cell. -/
theorem exists_of_stage_eq_set (h : c.stage = .set) :
    ∃ d, c.content = some d ∧ c.look? = some d := by
  unfold stage at h
  unfold look?
  split at h
  · cases h
  · next held =>
    split at h
    · next full =>
      obtain ⟨d, hd⟩ := Option.isSome_iff_exists.1 full
      exact ⟨d, hd, by rw [if_neg held, hd]⟩
    · cases h

/-! ## The life of a cell -/

namespace Stage

/-- A cell to which nothing happens stays in its stage. -/
theorem Precedes.refl (i : Stage) : i.Precedes i := by
  cases i <;> simp [Precedes]

/-- What can follow later on can follow at all, so a whole life is told from its single events. -/
theorem Precedes.trans {i j k : Stage} (h : i.Precedes j) (h' : j.Precedes k) : i.Precedes k := by
  cases i <;> cases j <;> cases k <;> simp_all [Precedes]

end Stage

/-- Nothing that happens to a cell takes it back to an earlier stage: what is in it stays in it, and
without a holder there is none to be copied. -/
theorem stage_after (c : Cell δ) (e : Event δ) : c.stage.Precedes (c.after e).stage := by
  by_cases gone : c.holders = 0
  · have stays : (c.after e).holders = 0 := by
      cases e <;> simp [after, gone]
    rw [stage_eq_dropped_iff.2 gone, stage_eq_dropped_iff.2 stays]
    exact .refl _
  · cases full : c.content with
    | none =>
      have unset : c.stage = .unset := by simp [stage, gone, full]
      rw [unset]
      trivial
    | some d =>
      have set : c.stage = .set := by simp [stage, gone, full]
      have kept : (c.after e).content.isSome := by
        cases e <;> simp [after, full]
      rw [set]
      show (c.after e).stage ≠ .unset
      unfold stage
      rw [if_pos kept]
      split <;> simp

/-- So the stages follow each other in one order, whatever happens and however often. A definition
that is gone does not come back, and one that was put in is not taken out while it is held. -/
theorem stage_foldl (c : Cell δ) (events : List (Event δ)) :
    c.stage.Precedes (events.foldl after c).stage := by
  induction events generalizing c with
  | nil => exact .refl _
  | cons e events ih => exact (c.stage_after e).trans (ih (c.after e))

/-- A copy is left when the first holder is given up, and none when the copy is given up as well. -/
example (d : δ) :
    (life [.fill d, .copy, .release]).stage = .set ∧
      (life [.fill d, .copy, .release, .release]).stage = .dropped :=
  ⟨rfl, rfl⟩

/-- There is nothing in the cell but this definition. -/
def HoldsOnly (c : Cell δ) (d : δ) : Prop :=
  ∀ d', c.content = some d' → d' = d

/-- Nothing but putting another definition in could change that, and it would have to come first. -/
theorem HoldsOnly.after {d : δ} (h : c.HoldsOnly d) {e : Event δ}
    (only : ∀ d', e = .fill d' → d' = d) : (c.after e).HoldsOnly d := by
  cases e with
  | copy | release => exact h
  | fill d₁ =>
    obtain rfl : d₁ = d := only d₁ rfl
    intro d' inside
    cases full : c.content with
    | some d₂ =>
      rw [Cell.after, full] at inside
      cases inside
      exact h _ full
    | none =>
      rw [Cell.after, full] at inside
      cases inside
      rfl

/-- Where only one definition is ever put in, there is never another one in the cell. -/
theorem HoldsOnly.foldl {d : δ} (h : c.HoldsOnly d) {events : List (Event δ)}
    (only : ∀ d', .fill d' ∈ events → d' = d) : (events.foldl Cell.after c).HoldsOnly d := by
  induction events generalizing c with
  | nil => exact h
  | cons e events ih =>
    refine ih (h.after fun d' hd' => only d' ?_) fun d' hd' => only d' (List.mem_cons_of_mem e hd')
    rw [hd']
    exact List.mem_cons_self

/-- A cell is made empty, so what is in it at any time was put in. -/
theorem holdsOnly_life {events : List (Event δ)} {d : δ}
    (only : ∀ d', .fill d' ∈ events → d' = d) : (life events).HoldsOnly d :=
  HoldsOnly.foldl (fun _ inside => by cases inside) only

/-! ## What a stand-in does -/

variable {Γ : Scope} {α : Type} {limits : Limits} {ρ : Environment Γ}

/-- With the definition in the cell, a stand-in does what the whole definition does: each reference
looks into the same cell again. -/
theorem ask_of_look?_eq_some {c : Cell (Rule (α :: Γ) α)} {body : Rule (α :: Γ) α}
    (h : c.look? = some body) (depth : Nat) :
    c.ask limits ρ depth =
      Behaviour.fixed (fun self => body.run limits (ρ.extend (some self))) depth := by
  induction depth with
  | zero =>
    rw [ask, h]
    rfl
  | succ depth ih =>
    rw [ask, h]
    dsimp only
    rw [ih]
    rfl

/-- With nothing to be found it refuses, before any reference is counted. -/
theorem ask_of_look?_eq_none {c : Cell (Rule (α :: Γ) α)} (h : c.look? = none) (depth : Nat) :
    c.ask limits ρ depth = State.fail .undefined := by
  cases depth <;> rw [ask, h]

end Cell

namespace Parser

variable {Γ : Scope} {α β : Type} {limits : Limits}

/-- **What a parser does beside a cell**, into which nothing but the one definition is put, is what
it does with the finished definition in the place of the stand-in, or with a stand-in that has
outlived it: the first while the cell is set, the second before and after. -/
theorem run_beside_cell (define : Parser (α :: Γ) α → Parser (α :: Γ) α)
    {events : List (Cell.Event (Rule (α :: Γ) α))}
    (only : ∀ d, .fill d ∈ events → d = (define (.standIn .here)).rule)
    (p : Parser (α :: Γ) β) (ρ : Environment Γ) :
    let c := Cell.life events
    let beside := p.rule.run limits (ρ.extend (some (c.ask limits ρ limits.depth)))
    (c.stage = .set → beside = (p.rule.instantiate (recursive define).rule).run limits ρ) ∧
      (c.stage ≠ .set → beside = p.outlived.rule.run limits ρ) := by
  intro c beside
  constructor
  · intro set
    obtain ⟨body, content, look⟩ := Cell.exists_of_stage_eq_set set
    obtain rfl := Cell.holdsOnly_life only body content
    rw [Rule.run_instantiate]
    exact congrArg (fun b => p.rule.run limits (ρ.extend (some b)))
      (Cell.ask_of_look?_eq_some look _)
  · intro other
    have refuses : (Rule.fail .undefined : Rule Γ α).run limits ρ = State.fail .undefined := rfl
    have asked : c.ask limits ρ limits.depth = State.fail .undefined :=
      Cell.ask_of_look?_eq_none (Cell.look?_of_stage_ne other) limits.depth
    show _ = (Rule.outlived p.rule).run limits ρ
    rw [Rule.run_outlived p.rule refuses, Rule.run_instantiate, refuses]
    exact congrArg (fun b => p.rule.run limits (ρ.extend (some b))) asked

end Parser

end Descent
