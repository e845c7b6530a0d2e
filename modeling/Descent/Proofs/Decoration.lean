/-
Wrappers around a parser.

Some wrappers do not change what a parser matches. They change its value, the sentence of its
failure, where that is reported or where the cursor is left. Here they are put around a parser
in any number and order (`Decoration`).

What comes out is told from four facts about the whole stack, none of which asks in what order
the wrappers of different kinds stand (`Decoration.run_apply`). The value passes all functions on
its way out. The sentence is the outermost one. The failure is reported at the start if there is
an atomic wrapper anywhere, and the cursor is taken back if there is one that backtracks. The
kind of the failure is never touched, and no wrapper turns a value into a failure or the other
way round.

The one condition is that there is a way back: the parser began in a place of the text, and the
text is still the same (`Rule.keeps`).
-/
import Descent.Proofs.Endings
import Descent.Proofs.InStep
import Descent.Proofs.Keeping
import Descent.Proofs.Unfolding

set_option autoImplicit false

namespace Descent

open Text

variable {Γ : Scope} {α β : Type}

/-- The parser inside of one more definition, whose stand-in it does not use. -/
def Parser.weaken (p : Parser Γ α) : Parser (β :: Γ) α :=
  ⟨p.name, p.rule.rename fun _ => .outer⟩

/-- A stack of wrappers around a parser for an `α`, the outermost first. -/
inductive Decoration (α : Type) : Type → Type 1
  /-- No wrapper. -/
  | bare : Decoration α α
  | map {β γ : Type} (f : β → γ) (inner : Decoration α β) : Decoration α γ
  | rephrase {β : Type} (reason : String) (inner : Decoration α β) : Decoration α β
  | atomically {β : Type} (inner : Decoration α β) : Decoration α β
  /-- A choice without another alternative. -/
  | oneOf {β : Type} (inner : Decoration α β) : Decoration α β
  /-- A definition that does not refer to itself. -/
  | recursive {β : Type} (inner : Decoration α β) : Decoration α β

namespace Decoration

/-! ## What a stack is and does -/

/-- The parser in its wrappers. -/
def apply {β : Type} : Decoration α β → Parser Γ α → Parser Γ β
  | bare, p => p
  | map f inner, p => (inner.apply p).map f
  | rephrase reason inner, p => (inner.apply p).rephrase reason
  | atomically inner, p => (inner.apply p).atomically
  | oneOf inner, p => .oneOf [inner.apply p]
  | recursive inner, p => .recursive fun _ => (inner.apply p).weaken

/-- The value passed through all functions, from the inside out. -/
def value {β : Type} : Decoration α β → α → β
  | bare, a => a
  | map f inner, a => f (inner.value a)
  | rephrase _ inner, a | atomically inner, a | oneOf inner, a | recursive inner, a =>
    inner.value a

/-- The outermost sentence. -/
def reason? {β : Type} : Decoration α β → Option String
  | bare => none
  | rephrase reason _ => some reason
  | map _ inner | atomically inner | oneOf inner | recursive inner => inner.reason?

/-- There is a wrapper that is atomic. -/
def isAtomic {β : Type} : Decoration α β → Bool
  | bare => false
  | atomically _ => true
  | map _ inner | rephrase _ inner | oneOf inner | recursive inner => inner.isAtomic

/-- There is a wrapper that takes the cursor back. -/
def goesBack {β : Type} : Decoration α β → Bool
  | bare => false
  | atomically _ | oneOf _ => true
  | map _ inner | rephrase _ inner | recursive inner => inner.goesBack

/-- What the stack makes of a failure that the parser came to from `s`. -/
def failing (stack : Decoration α β) (s t : State) : State where
  text := t.text
  cursor := if stack.goesBack then s.cursor else t.cursor
  failure.kind := t.failure.kind
  failure.reason := stack.reason?.getD t.failure.reason
  failure.position := if stack.isAtomic then s.cursor else t.failure.position
  bookmarks := t.bookmarks

/-! ## Runs of a stack -/

section Runs

variable {limits : Limits} {ρ : Environment Γ} {p : Parser Γ α} {s t : State} {a : α}

/-- A definition that does not refer to itself is what it is defined as. -/
theorem run_recursive_weaken (deep : 0 < limits.depth) :
    (Parser.recursive fun _ => p.weaken).rule.run limits ρ = p.rule.run limits ρ := by
  show Behaviour.fixed _ limits.depth = _
  cases depth : limits.depth with
  | zero => omega
  | succ depth =>
    funext s
    exact congrFun (Rule.run_rename p.rule _ _) s

/-- No wrapper has anything to do behind a success, so the stack comes to the value of the parser
inside. A recursive one takes a reference to get in. -/
theorem run_apply_of_done (deep : 0 < limits.depth) (succeeds : p.rule.run limits ρ s = .done a t)
    (stack : Decoration α β) :
    (stack.apply p).rule.run limits ρ s = .done (stack.value a) t := by
  induction stack with
  | bare => exact succeeds
  | map f inner ih => exact Run.map_eq_done_iff.2 ⟨_, ih, rfl⟩
  | rephrase reason inner ih => exact Run.orElse_eq_done_iff.2 (.inl ih)
  | atomically inner ih => exact Behaviour.atomically_eq_done_iff.2 ih
  | oneOf inner ih => exact Run.orElse_eq_done_iff.2 (.inl ih)
  | recursive inner ih =>
    rw [apply, run_recursive_weaken deep]
    exact ih

/-- Each wrapper adds its part to what the stack inside of it has made of the failure. -/
theorem run_apply_of_failed (deep : 0 < limits.depth) (fails : p.rule.run limits ρ s = .failed t)
    (stack : Decoration α β) (back : stack.goesBack = true → IsPlace s.cursor t.text = true) :
    (stack.apply p).rule.run limits ρ s = .failed (stack.failing s t) := by
  -- From the inside out. The text stays that of `t`, so there is a way back for each wrapper.
  induction stack with
  | bare => exact fails
  | map f inner ih => exact Run.map_eq_failed_iff.2 (ih back)
  | rephrase reason inner ih => exact Run.orElse_eq_failed_iff.2 ⟨_, ih back, rfl⟩
  | atomically inner ih =>
    have place : IsPlace s.cursor t.text = true := back rfl
    exact Behaviour.atomically_eq_failed_iff.2 ⟨_, ih fun _ => place, place, rfl⟩
  | oneOf inner ih =>
    have place : IsPlace s.cursor t.text = true := back rfl
    have moved : State.moveTo s.cursor (inner.failing s t) =
        .done () { inner.failing s t with cursor := s.cursor } :=
      State.moveTo_eq_done_iff.2 ⟨place, rfl⟩
    refine Run.orElse_eq_failed_iff.2 ⟨_, ih fun _ => place, ?_⟩
    rw [moved]
    rfl
  | recursive inner ih =>
    rw [apply, run_recursive_weaken deep]
    exact ih back

/-- A run that comes to no end comes to none in wrappers. -/
theorem run_apply_of_halted (deep : 0 < limits.depth) {halt : Halt}
    (halted : p.rule.run limits ρ s = halt.run) (stack : Decoration α β) :
    (stack.apply p).rule.run limits ρ s = halt.run := by
  induction stack with
  | bare => exact halted
  | map f inner ih =>
    show ((inner.apply p).rule.run limits ρ s).andThen _ = _
    rw [ih, Halt.andThen_run]
  | rephrase reason inner ih | atomically inner ih | oneOf inner ih =>
    show ((inner.apply p).rule.run limits ρ s).orElse _ = _
    rw [ih, Halt.orElse_run]
  | recursive inner ih =>
    rw [apply, run_recursive_weaken deep]
    exact ih

end Runs

/-- **Wrappers compose, whatever their order.** With any stack around it, a parser ends as it does
alone. A value comes out as the functions of the stack make it, from the inside out, with cursor
and slot as they were. A failure is of the same kind, with the outermost sentence of the stack,
if it has one, reported at the start if the stack is atomic anywhere, and with the cursor there
if the stack goes back anywhere. -/
theorem run_apply (stack : Decoration α β) (p : Parser Γ α) (limits : Limits)
    (deep : 0 < limits.depth) {ρ : Environment Γ} (hρ : ρ.Keeps False) {s : State}
    (place : stack.goesBack = true → IsPlace s.cursor s.text = true) :
    (stack.apply p).rule.run limits ρ s =
      match p.rule.run limits ρ s with
      | .done a t => .done (stack.value a) t
      | .failed t => .failed (stack.failing s t)
      | .fault => .fault
      | .unfinished => .unfinished := by
  have kept : (p.rule.run limits ρ s).Keeps False s := Rule.keeps limits False.elim hρ s
  cases alone : p.rule.run limits ρ s with
  | done a t => exact run_apply_of_done deep alone stack
  | failed t =>
    rw [alone] at kept
    cases kept with
    | failed kept =>
      exact run_apply_of_failed deep alone stack fun asked => kept.isPlace (place asked)
  | fault =>
    have halted : p.rule.run limits ρ s = Halt.fault.run := alone
    exact run_apply_of_halted deep halted stack
  | unfinished =>
    have halted : p.rule.run limits ρ s = Halt.unfinished.run := alone
    exact run_apply_of_halted deep halted stack

/-- A choice between two sentences takes the cursor back and leaves the report, and one more wrapper
on the outside takes that back too. -/
theorem run_apply_mixed :
    let p : Parser [] (Char × Char) := (Parser.char 'ż').pair (Parser.char 'a')
    let stack : Decoration (Char × Char) Char :=
      .rephrase "outer" (.oneOf (.map Prod.fst (.rephrase "inner" (.recursive .bare))))
    let s : State := { State.start "xżb" with cursor := 1 }
    let t : State :=
      { s with cursor := 3, failure := ⟨.literalMismatch, "Expected 'a', but got 'b'.", 3⟩ }
    p.rule.run ⟨1, 1⟩ .undefined s = .failed t ∧
      (stack.apply p).rule.run ⟨1, 1⟩ .undefined s =
        .failed { s with failure := ⟨.literalMismatch, "outer", 3⟩ } ∧
      (stack.atomically.apply p).rule.run ⟨1, 1⟩ .undefined s =
        .failed { s with failure := ⟨.literalMismatch, "outer", 1⟩ } := by
  intro p stack s t
  have alone : p.rule.run ⟨1, 1⟩ .undefined s = .failed t := by decide +kernel
  have place : IsPlace s.cursor s.text = true := by decide +kernel
  have once := run_apply stack p ⟨1, 1⟩ (by decide) .undefined fun _ => place
  have twice := run_apply stack.atomically p ⟨1, 1⟩ (by decide) .undefined fun _ => place
  rw [alone] at once twice
  exact ⟨alone, once, twice⟩

end Decoration

end Descent
