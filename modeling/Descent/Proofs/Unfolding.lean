/-
A definition is what it is defined as.

A definition that refers to itself does what its body does with the whole definition put in
the place of the stand-in: with one unfolding, that is (`Parser.recursive_unfolds`). What is
put there is put inside of sequences whose second part depends on a value, and inside of
other definitions, where it must be told which stand-ins are whose. So substitution is
defined first, on rules as they are built, and what a rule with something put in does is
what it does in an environment where the stand-in does that (`Rule.run_subst`).

The two sides need not reach their limits together, as one of them is an unfolding ahead.
So they are compared by what they come to with limits that are large enough
(`Rule.EndsAs`): each approximates the other, up to one reference.
-/
import Descent.Proofs.Approximation
import Descent.Parser.Combinators

set_option autoImplicit false

namespace Descent

variable {Γ Δ : Scope} {α β : Type} {limits : Limits}

/-! ## Substitution -/

/-- For each stand-in of the one scope one of the other. -/
def Renaming (Γ Δ : Scope) : Type 1 :=
  (α : Type) → StandIn Γ α → StandIn Δ α

/-- Inside a definition that is open on both sides. -/
def Renaming.lift (f : Renaming Γ Δ) : Renaming (β :: Γ) (β :: Δ)
  | _, .here => .here
  | _, .outer v => .outer (f _ v)

/-- The rule with its stand-ins exchanged. -/
def Rule.rename : {Γ : Scope} → {α : Type} → Rule Γ α → {Δ : Scope} → Renaming Γ Δ → Rule Δ α
  | _, _, pure a, _, _ => pure a
  | _, _, bind r next, _, f => bind (r.rename f) fun a => (next a).rename f
  | _, _, fail cause, _, _ => fail cause
  | _, _, operation o, _, _ => operation o
  | _, _, attempt r, _, f => attempt (r.rename f)
  | _, _, rewind r, _, f => rewind (r.rename f)
  | _, _, atomically r, _, f => atomically (r.rename f)
  | _, _, handle r next rescue, _, f =>
    handle (r.rename f) (fun a => (next a).rename f) (rescue.rename f)
  | _, _, raise, _, _ => raise
  | _, _, rephrase reason r, _, f => rephrase reason (r.rename f)
  | _, _, many r, _, f => many (r.rename f)
  | _, _, iterate step b, _, f => iterate (fun b => (step b).rename f) b
  | _, _, speculate r, _, f => speculate (r.rename f)
  | _, _, enclosed r, _, f => enclosed (r.rename f)
  | _, _, recursive body, _, f => recursive (body.rename f.lift)
  | _, _, reference v, _, f => reference (f _ v)
  | _, _, outlived r, _, f => outlived (r.rename f.lift)

/-- For each stand-in of the one scope a rule over the other. -/
def Substitution (Γ Δ : Scope) : Type 1 :=
  (α : Type) → StandIn Γ α → Rule Δ α

namespace Substitution

/-- Inside a definition, whose own stand-in stays. -/
def lift (f : Substitution Γ Δ) : Substitution (β :: Γ) (β :: Δ)
  | _, .here => .reference .here
  | _, .outer v => (f _ v).rename fun _ => .outer

/-- A rule for the innermost stand-in. -/
def single (r : Rule Γ α) : Substitution (α :: Γ) Γ
  | _, .here => r
  | _, .outer v => .reference v

end Substitution

namespace Rule

/-- The rule with rules in the place of its stand-ins. -/
def subst : {Γ : Scope} → {α : Type} → Rule Γ α → {Δ : Scope} → Substitution Γ Δ → Rule Δ α
  | _, _, pure a, _, _ => pure a
  | _, _, bind r next, _, f => bind (r.subst f) fun a => (next a).subst f
  | _, _, fail cause, _, _ => fail cause
  | _, _, operation o, _, _ => operation o
  | _, _, attempt r, _, f => attempt (r.subst f)
  | _, _, rewind r, _, f => rewind (r.subst f)
  | _, _, atomically r, _, f => atomically (r.subst f)
  | _, _, handle r next rescue, _, f =>
    handle (r.subst f) (fun a => (next a).subst f) (rescue.subst f)
  | _, _, raise, _, _ => raise
  | _, _, rephrase reason r, _, f => rephrase reason (r.subst f)
  | _, _, many r, _, f => many (r.subst f)
  | _, _, iterate step b, _, f => iterate (fun b => (step b).subst f) b
  | _, _, speculate r, _, f => speculate (r.subst f)
  | _, _, enclosed r, _, f => enclosed (r.subst f)
  | _, _, recursive body, _, f => recursive (body.subst f.lift)
  | _, _, reference v, _, f => f _ v
  | _, _, outlived r, _, f => outlived (r.subst f.lift)

/-- The rule with another in the place of the innermost stand-in. -/
def instantiate (r : Rule (α :: Γ) β) (inner : Rule Γ α) : Rule Γ β :=
  r.subst (.single inner)

/-- In another definition, the stand-in of the outer one makes place, and that of the inner one
stays. -/
example (p : Parser Γ Char) :
    (Parser.recursive fun inner =>
        .bracket (.standIn (.outer .here)) (.literal ")") inner).rule.instantiate p.rule =
      Rule.recursive (.bracket (p.rule.rename fun _ => .outer) (.literal ")") (.reference .here) :
        Rule (Unit :: Γ) Unit) :=
  rfl

end Rule

/-! ## What a rule does with something put in -/

/-- Inside a definition, to look stand-ins up by their other names is to extend the environment in
which they were looked up. -/
theorem Environment.extend_lift (ρ : Environment Δ) (f : Renaming Γ Δ) (b : Option (Behaviour β)) :
    (fun α v => ρ.extend b α (f.lift α v)) = Environment.extend (fun α v => ρ α (f α v)) b := by
  funext α v
  cases v with
  | here => rfl
  | outer v => rfl

/-- To exchange stand-ins in a rule is to exchange what they are looked up as. By induction on the
rule, for all environments, as definitions inside it extend them. -/
theorem Rule.run_rename (r : Rule Γ α) (f : Renaming Γ Δ) (ρ : Environment Δ) :
    (r.rename f).run limits ρ = r.run limits fun α v => ρ α (f α v) := by
  induction r generalizing Δ with
  | pure | fail | operation | raise | reference => rfl
  | bind r next ihr ihnext => simp only [rename, run, ihr, ihnext]
  | handle r next rescue ihr ihnext ihrescue => simp only [rename, run, ihr, ihnext, ihrescue]
  | attempt _ ih | rewind _ ih | atomically _ ih | rephrase _ _ ih | many _ ih | iterate _ _ ih
  | speculate _ ih | enclosed _ ih => simp only [rename, run, ih]
  | recursive body ih | outlived body ih =>
    simp only [rename, run, ih, Environment.extend_lift]

/-- In `ρ`, the rule put in for a stand-in does what the stand-in does in `ρ'`. -/
def Substitution.Realizes (limits : Limits) (ρ : Environment Δ) (f : Substitution Γ Δ)
    (ρ' : Environment Γ) : Prop :=
  ∀ (α : Type) (v : StandIn Γ α), (f α v).run limits ρ = (Rule.reference v).run limits ρ'

namespace Substitution.Realizes

variable {ρ : Environment Δ} {f : Substitution Γ Δ} {ρ' : Environment Γ}

/-- Inside another definition the rules that are put in have their stand-ins renamed, so they still
do what they did outside. -/
theorem lift (h : f.Realizes limits ρ ρ') (b : Option (Behaviour β)) :
    f.lift.Realizes limits (ρ.extend b) (ρ'.extend b) := by
  intro α v
  cases v with
  | here => rfl
  | outer v => exact (Rule.run_rename (f α v) _ _).trans (h α v)

end Substitution.Realizes

/-- **A rule with rules put in** does what it does where the stand-ins do what these rules do. -/
theorem Rule.run_subst {r : Rule Γ α} {f : Substitution Γ Δ} {ρ : Environment Δ}
    {ρ' : Environment Γ} (h : f.Realizes limits ρ ρ') :
    (r.subst f).run limits ρ = r.run limits ρ' := by
  induction r generalizing Δ with
  | pure | fail | operation | raise => rfl
  | reference v => exact h _ v
  | bind r next ihr ihnext =>
    rw [subst, run, run, ihr h]
    exact congrArg _ (funext fun a => ihnext a h)
  | handle r next rescue ihr ihnext ihrescue =>
    rw [subst, run, run, ihr h, ihrescue h]
    exact congrArg (Behaviour.handle _ · _) (funext fun a => ihnext a h)
  | attempt _ ih | rewind _ ih | atomically _ ih | rephrase _ _ ih | many _ ih
  | speculate _ ih | enclosed _ ih => rw [subst, run, run, ih h]
  | iterate step b ih =>
    rw [subst, run, run]
    exact congrArg (Behaviour.iterate · _ _) (funext fun b => ih b h)
  | recursive body ih =>
    -- The stand-in of the inner definition does the same on both sides, whatever that is.
    rw [subst, run, run]
    exact congrArg (Behaviour.fixed · _) (funext fun self => ih (h.lift (some self)))
  | outlived r ih => exact ih (h.lift none)

/-- One rule put in for the innermost stand-in, which is how a definition is unfolded. -/
theorem Rule.run_instantiate (r : Rule (α :: Γ) β) (inner : Rule Γ α) (ρ : Environment Γ) :
    (r.instantiate inner).run limits ρ = r.run limits (ρ.extend (some (inner.run limits ρ))) := by
  refine run_subst fun γ v => ?_
  cases v with
  | here => rfl
  | outer v => rfl

/-- A stand-in that has outlived its definition is one that refuses, so it makes no difference
whether it is left in a rule or a rule that refuses is put in its place. -/
theorem Rule.run_outlived (r : Rule (α :: Γ) β) {refusal : Rule Γ α} {ρ : Environment Γ}
    (h : refusal.run limits ρ = State.fail .undefined) :
    (Rule.outlived r).run limits ρ = (r.instantiate refusal).run limits ρ := by
  show r.run limits (ρ.extend none) = (r.subst (.single refusal)).run limits ρ
  refine (run_subst fun γ v => ?_).symm
  cases v with
  | here => exact h
  | outer v => rfl

/-! ## One unfolding -/

namespace Rule

/-- What the rule comes to from this state, with any limits that are large enough. -/
def EndsAs (r : Rule Γ α) (ρ : Environment Γ) (s : State) (q : Run α) : Prop :=
  q ≠ .unfinished ∧ ∃ limits : Limits, ∀ limits' : Limits, limits.depth ≤ limits'.depth →
    limits.rounds ≤ limits'.rounds → r.run limits' ρ s = q

variable (body : Rule (α :: Γ) α) (ρ : Environment Γ)

/-- The definition unfolded once has one more reference nested, for the body around it is run
without one. -/
theorem run_unfolded (limits : Limits) :
    (body.instantiate (.recursive body)).run limits ρ =
      Behaviour.fixed (fun self => body.run limits (ρ.extend (some self))) (limits.depth + 1) :=
  run_instantiate body (.recursive body) ρ

/-- What the body does depends on its stand-in only so far as that ends. -/
theorem approximates_body {limits limits' : Limits} (depth : limits.depth ≤ limits'.depth)
    (rounds : limits.rounds ≤ limits'.rounds) (b c : Behaviour α) (h : b.Approximates c) :
    (body.run limits (ρ.extend (some b))).Approximates
      (body.run limits' (ρ.extend (some c))) :=
  body.run_approximates depth rounds ((Environment.Approximates.refl ρ).extend (.some h))

/-- The unfolding can nest one reference more, so it does all that the definition comes to with the
same limits. -/
theorem recursive_approximates (limits : Limits) :
    ((Rule.recursive body).run limits ρ).Approximates
      ((body.instantiate (.recursive body)).run limits ρ) := by
  rw [run_unfolded]
  exact .fixed (approximates_body body ρ (Nat.le_refl _) (Nat.le_refl _)) (Nat.le_succ _)

/-- In the other direction the definition needs one reference more. Its rounds need not be more. -/
theorem unfolded_approximates (limits : Limits) :
    ((body.instantiate (.recursive body)).run limits ρ).Approximates
      ((Rule.recursive body).run { limits with depth := limits.depth + 1 } ρ) := by
  have deeper : limits.depth ≤ { limits with depth := limits.depth + 1 }.depth := Nat.le_succ _
  rw [run_unfolded]
  exact .fixed (approximates_body body ρ deeper (Nat.le_refl _)) (Nat.le_refl _)

/-- With limits left open, the one reference between the two makes no difference. -/
theorem endsAs_recursive_iff (s : State) (q : Run α) :
    (Rule.recursive body).EndsAs ρ s q ↔ (body.instantiate (.recursive body)).EndsAs ρ s q := by
  constructor
  · rintro ⟨ended, limits, h⟩
    refine ⟨ended, limits, fun limits' depth rounds => ?_⟩
    have run := h limits' depth rounds
    rw [← run] at ended ⊢
    exact ((recursive_approximates body ρ limits' s).eq_of_ne ended).symm
  · rintro ⟨ended, limits, h⟩
    -- One reference more is what the definition needs to be as far as its unfolding.
    refine ⟨ended, { limits with depth := limits.depth + 1 }, fun limits' depth rounds => ?_⟩
    obtain ⟨d, hd⟩ : ∃ d, limits'.depth = d + 1 :=
      ⟨limits'.depth - 1, by have : limits.depth + 1 ≤ limits'.depth := depth; omega⟩
    have fewer : limits.depth ≤ d := by
      have : limits.depth + 1 ≤ limits'.depth := depth
      omega
    have run := h { limits' with depth := d } fewer rounds
    rw [← run] at ended ⊢
    have whole := (unfolded_approximates body ρ { limits' with depth := d } s).eq_of_ne ended
    rw [whole]
    show _ = (Rule.recursive body).run ⟨d + 1, limits'.rounds⟩ ρ s
    rw [← hd]

end Rule

namespace Parser

/-- **A definition is its own unfolding.** It comes to what its body comes to with the definition
put in for the stand-in, in any scope. Where the definition does not exist, be it no more or not
yet, the stand-in refuses where it stands and leaves the cursor alone, and wherever it occurs in a
parser, that does what it does with a parser that refuses in this place. -/
theorem recursive_unfolds (define : Parser (α :: Γ) α → Parser (α :: Γ) α) (ρ : Environment Γ)
    (s : State) :
    (∀ q, (recursive define).rule.EndsAs ρ s q ↔
      ((define (.standIn .here)).rule.instantiate (recursive define).rule).EndsAs ρ s q) ∧
    ∀ limits : Limits,
      (standIn .here : Parser (α :: Γ) α).outlived.rule.run limits ρ s =
        .failed { s with failure := ⟨.refused, Cause.undefined.message, s.cursor⟩ } ∧
      ∀ (β : Type) (p : Parser (α :: Γ) β), p.outlived.rule.run limits ρ s =
        (p.rule.instantiate (fail Cause.undefined.message).rule).run limits ρ s := by
  refine ⟨fun q => ?_, fun limits => ⟨rfl, fun β p => ?_⟩⟩
  · exact Rule.endsAs_recursive_iff (define (.standIn .here)).rule ρ s q
  · have refuses : (fail Cause.undefined.message : Parser Γ α).rule.run limits ρ =
        State.fail .undefined := rfl
    exact congrFun (Rule.run_outlived p.rule refuses) s

end Parser

end Descent
