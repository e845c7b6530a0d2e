/-
Larger limits.

A run that is given up says nothing. With larger limits it may go on, and then it ends as it
ends: larger limits never change a run that has ended. So one run *approximates* another
when it was given up or is the same (`Run.Approximates`), and with larger limits a rule does
what it is an approximation of (`Rule.run_approximates`).

Nothing is known here of what the stand-ins in scope do, other than that those of the one
run approximate those of the other. Each operator on behaviours keeps approximations, by one
lemma each. Those that repeat or refer to themselves do so with more rounds, too.
-/
import Descent.Rule.Basic

set_option autoImplicit false

namespace Descent

variable {Γ : Scope} {α β : Type}

/-! ## Runs -/

/-- The first run was given up, or it is the second. -/
def Run.Approximates (q r : Run α) : Prop :=
  q = .unfinished ∨ q = r

/-- From every state, what the first behaviour does approximates what the second does. -/
def Behaviour.Approximates (b c : Behaviour α) : Prop :=
  ∀ s : State, (b s).Approximates (c s)

namespace Run.Approximates

variable {q r : Run α}

/-- A run approximates itself, given up or not, so whatever limits have no part in may be left as it
is. -/
theorem refl (q : Run α) : q.Approximates q :=
  .inr rfl

/-- A run that was not given up is known: the other run is the same, whatever the limits were. Every
use of approximations ends with this. -/
theorem eq_of_ne (h : q.Approximates r) (ended : q ≠ .unfinished) : q = r :=
  h.resolve_left ended

/-- If the first run was given up, so is the whole. If it is the same in both, what follows is
compared from the state it ended in. -/
theorem andThen {next next' : α → Behaviour β} (h : q.Approximates r)
    (hnext : ∀ a, (next a).Approximates (next' a)) :
    (q.andThen next).Approximates (r.andThen next') := by
  rcases h with rfl | rfl
  · exact .inl rfl
  · cases q with
    | done a t => exact hnext a t
    | failed | fault | unfinished => exact .refl _

/-- The rescue is called for by the same failure in both, or the run was given up before that could
be told. -/
theorem orElse {rescue rescue' : Behaviour α} (h : q.Approximates r)
    (hrescue : rescue.Approximates rescue') :
    (q.orElse rescue).Approximates (r.orElse rescue') := by
  rcases h with rfl | rfl
  · exact .inl rfl
  · cases q with
    | failed t => exact hrescue t
    | done | fault | unfinished => exact .refl _

/-- A run that was given up has no value to be mapped, and stays given up. -/
theorem map (h : q.Approximates r) (f : α → β) : (q.map f).Approximates (r.map f) :=
  h.andThen fun _ _ => .refl _

end Run.Approximates

/-! ## Behaviours -/

namespace Behaviour.Approximates

variable {b c : Behaviour α}

/-- What does not depend on the limits at all, such as an operation, is its own approximation. -/
theorem refl (b : Behaviour α) : b.Approximates b :=
  fun _ => .refl _

/-- One behaviour after the other, state by state. The second is compared from every state, since
either run may lead to it. -/
theorem andThen {d e : Behaviour β} {next next' : β → Behaviour α} (h : d.Approximates e)
    (hnext : ∀ a, (next a).Approximates (next' a)) :
    (Behaviour.andThen d next).Approximates (Behaviour.andThen e next') :=
  fun s => (h s).andThen hnext

/-- To say by a value what became of a run needs no limits of its own. -/
theorem attempt (h : b.Approximates c) :
    (Behaviour.attempt b).Approximates (Behaviour.attempt c) :=
  fun s => ((h s).map some).orElse (.refl _)

/-- Going back on failure needs none either, for it is one move. -/
theorem rewind (h : b.Approximates c) :
    (Behaviour.rewind b).Approximates (Behaviour.rewind c) :=
  fun s => (h s).orElse (.refl _)

/-- Nor does reporting the failure from there. -/
theorem atomically (h : b.Approximates c) :
    (Behaviour.atomically b).Approximates (Behaviour.atomically c) :=
  fun s => (h s).orElse (.refl _)

/-- Both ways out of the first run are compared, for it ends in the same one unless it was given up.
-/
theorem handle {d e : Behaviour β} {next next' : β → Behaviour α} (h : d.Approximates e)
    (hnext : ∀ a, (next a).Approximates (next' a)) (hrescue : b.Approximates c) :
    (Behaviour.handle d next b).Approximates (Behaviour.handle e next' c) := by
  intro s
  rw [Behaviour.handle, Behaviour.handle]
  rcases h s with unfinished | same
  · rw [unfinished]
    exact .inl rfl
  · rw [same]
    cases e s with
    | done a t => exact hnext a t
    | failed t => exact hrescue t
    | fault | unfinished => exact .refl _

/-- A failure that was reached is rephrased alike, whatever the limits were. -/
theorem rephrase (h : b.Approximates c) (reason : String) :
    (Behaviour.rephrase reason b).Approximates (Behaviour.rephrase reason c) :=
  fun s => (h s).orElse (.refl _)

/-- **More rounds do no harm.** By induction on the fewer: where a loop ends within these, it ends
in the same round with more. -/
theorem repeatedly (h : b.Approximates c) {m n : Nat} (fewer : m ≤ n) :
    (Behaviour.repeatedly b m).Approximates (Behaviour.repeatedly c n) := by
  induction m generalizing n with
  | zero => exact fun _ => .inl rfl
  | succ m ih =>
    obtain ⟨n, rfl⟩ : ∃ i, n = i + 1 := ⟨n - 1, by omega⟩
    intro s
    rw [Behaviour.repeatedly, Behaviour.repeatedly]
    rcases h s with unfinished | same
    · rw [unfinished]
      exact .inl rfl
    · rw [same]
      cases c s with
      | done a t => exact (ih (by omega) t).map _
      | failed | fault | unfinished => exact .refl _

/-- The same of a loop that carries a value along, for every value to begin with. -/
theorem iterate {step step' : β → Behaviour (β ⊕ α)} (h : ∀ x, (step x).Approximates (step' x))
    {m n : Nat} (fewer : m ≤ n) (x : β) :
    (Behaviour.iterate step m x).Approximates (Behaviour.iterate step' n x) := by
  induction m generalizing n x with
  | zero => exact fun _ => .inl rfl
  | succ m ih =>
    obtain ⟨n, rfl⟩ : ∃ i, n = i + 1 := ⟨n - 1, by omega⟩
    intro s
    rw [Behaviour.iterate, Behaviour.iterate]
    refine (h x s).andThen fun y => ?_
    cases y with
    | inl x => exact ih (by omega) x
    | inr a => exact .refl _

/-- What is done on a copy is given up with the copy. -/
theorem speculate (h : b.Approximates c) :
    (Behaviour.speculate b).Approximates (Behaviour.speculate c) :=
  fun s => (h.attempt s).andThen fun _ => .refl _

/-- Limits are the same inside and outside of what is enclosed. -/
theorem enclosed (h : b.Approximates c) :
    (Behaviour.enclosed b).Approximates (Behaviour.enclosed c) :=
  fun _ => ((h _).andThen fun _ => .refl _).orElse (.refl _)

/-- With more references nested, a definition does what it did with fewer. -/
theorem fixed {define define' : Behaviour α → Behaviour α}
    (h : ∀ b c, b.Approximates c → (define b).Approximates (define' c)) {m n : Nat}
    (fewer : m ≤ n) : (Behaviour.fixed define m).Approximates (Behaviour.fixed define' n) := by
  induction m generalizing n with
  | zero => exact fun _ => .inl rfl
  | succ m ih =>
    obtain ⟨n, rfl⟩ : ∃ i, n = i + 1 := ⟨n - 1, by omega⟩
    exact h _ _ (ih (by omega))

end Behaviour.Approximates

/-! ## Rules -/

/-- What each stand-in does in the first environment approximates what it does in the second. -/
def Environment.Approximates (ρ ρ' : Environment Γ) : Prop :=
  ∀ (α : Type) (v : StandIn Γ α), Option.Rel Behaviour.Approximates (ρ α v) (ρ' α v)

namespace Environment.Approximates

variable {ρ ρ' : Environment Γ}

/-- Nothing is open where nothing is referred to, so the empty environment approximates itself too.
-/
theorem refl (ρ : Environment Γ) : ρ.Approximates ρ := by
  intro α v
  cases ρ α v with
  | none => exact .none
  | some b => exact .some (.refl b)

/-- A definition that is entered puts one more behaviour into scope, and that is the inner one of
the fixed point at its own depth. -/
theorem extend (h : ρ.Approximates ρ') {b b' : Option (Behaviour α)}
    (hb : Option.Rel Behaviour.Approximates b b') :
    (ρ.extend b).Approximates (ρ'.extend b') := by
  intro β v
  cases v with
  | here => exact hb
  | outer v => exact h β v

end Environment.Approximates

/-- **Larger limits change no run that has ended.** By induction on the rule, with one of the lemmas
above for each way to build one. -/
theorem Rule.run_approximates {limits limits' : Limits} (depth : limits.depth ≤ limits'.depth)
    (rounds : limits.rounds ≤ limits'.rounds) (r : Rule Γ α) {ρ ρ' : Environment Γ}
    (hρ : ρ.Approximates ρ') : (r.run limits ρ).Approximates (r.run limits' ρ') := by
  induction r with
  | pure | fail | operation | raise => exact .refl _
  | bind r next ihr ihnext => exact (ihr hρ).andThen fun a => ihnext a hρ
  | attempt r ih => exact (ih hρ).attempt
  | rewind r ih => exact (ih hρ).rewind
  | atomically r ih => exact (ih hρ).atomically
  | handle r next rescue ihr ihnext ihrescue =>
    exact (ihr hρ).handle (fun a => ihnext a hρ) (ihrescue hρ)
  | rephrase reason r ih => exact (ih hρ).rephrase reason
  | many r ih => exact (ih hρ).repeatedly rounds
  | iterate step b ih => exact .iterate (fun b => ih b hρ) rounds b
  | speculate r ih => exact (ih hρ).speculate
  | enclosed r ih => exact (ih hρ).enclosed
  | recursive body ih => exact .fixed (fun b c hbc => ih (hρ.extend (.some hbc))) depth
  | reference v =>
    have hv := hρ _ v
    rw [run, run]
    generalize ρ _ v = b, ρ' _ v = b' at hv ⊢
    cases hv with
    | none => exact .refl _
    | some approximates => exact approximates
  | outlived r ih => exact ih (hρ.extend .none)

/-- Without open definitions, limits make no difference to a run that ends. -/
theorem Rule.run_eq_or_unfinished {limits limits' : Limits} (depth : limits.depth ≤ limits'.depth)
    (rounds : limits.rounds ≤ limits'.rounds) (r : Rule [] α) (s : State) :
    r.run limits .undefined s = r.run limits' .undefined s ∨
      r.run limits .undefined s = .unfinished :=
  (r.run_approximates depth rounds (.refl .undefined) s).symm

end Descent
