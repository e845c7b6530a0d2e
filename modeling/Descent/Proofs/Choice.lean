/-
What a choice comes to.

A choice tries its alternatives one after another, and each failure is left in the slot when
the next one begins. For alternatives that do not look at the slot this makes no difference.
They go through the text as if they were run alone from the start, and if they fail, they fail
with the very same state. So the choice is told from what its alternatives do alone
(`Parser.oneOf_run_first`): it does what the first of them does that succeeds.

What comes back on the way is the cursor, and nothing else has to: alternatives that are tidy
leave nothing behind but the slot.

The choice with labels and the one without differ in what they do at the end of the list. The
one raises the failure of the last alternative again, the other fails afresh. Up to there both
are one row of alternatives (`Rule.alternatives`).
-/
import Descent.Proofs.Confinement
import Descent.Proofs.Endings
import Descent.Proofs.Keeping

set_option autoImplicit false

namespace Descent

open Text

variable {Γ : Scope} {α : Type}

/-! ## Alternatives that are run alone -/

namespace Run.Tied

variable {f g : Failure} {q q' : Run α} {t : State} {a : α}

end Run.Tied

/-! ## Orderly rules -/

/-- A rule that neither asks for the last failure nor keeps places that are not enclosed. -/
structure Rule.Orderly (r : Rule Γ α) : Prop where
  blind : r.Blind
  tidy : r.Tidy

/-- What the stand-ins do keeps two runs on one text tied, and it keeps what it finds. -/
structure Environment.Orderly (ρ : Environment Γ) : Prop where
  tied : ρ.Tied [] false ρ
  keeps : ρ.Keeps True

namespace Environment.Orderly

variable {ρ : Environment Γ}

/-- With nothing in scope there is nothing that could look at the slot or keep a place. -/
theorem undefined : (Environment.undefined : Environment Γ).Orderly :=
  ⟨.undefined, .undefined⟩

/-- So it is inside of an orderly definition, down to any depth. -/
theorem extend (hρ : ρ.Orderly) {body : Rule (α :: Γ) α} (h : body.Orderly) (limits : Limits)
    (depth : Nat) :
    (ρ.extend (some (Behaviour.fixed (fun self => body.run limits (ρ.extend (some self)))
      depth))).Orderly where
  tied := by
    refine hρ.tied.extend (.some (.fixed (fun b c hbc => ?_) depth))
    exact h.blind.tied (fun _ ho => Operation.tied_of_isBlind ho) limits
      (hρ.tied.extend (.some hbc))
  keeps := by
    refine hρ.keeps.extend fun b hb => ?_
    cases hb
    refine .fixed (fun b hb => Rule.keeps limits (fun _ => h.tidy) (hρ.keeps.extend ?_)) depth
    rintro _ ⟨⟩
    exact hb

end Environment.Orderly

namespace Rule

variable {limits : Limits} {ρ : Environment Γ} {r : Rule Γ α} {s t : State}

/-- What the slot holds at the beginning plays no part in what an orderly rule does. -/
theorem Orderly.tied (h : r.Orderly) (hρ : ρ.Orderly) (limits : Limits) (s : State) (f : Failure) :
    Run.Tied [] s.failure f (r.run limits ρ s) (r.run limits ρ { s with failure := f }) :=
  h.blind.tied (fun _ ho => Operation.tied_of_isBlind ho) limits hρ.tied s { s with failure := f }
    (State.aligned_withFailure s f) (by simp)

/-- The first of the alternatives to match, or else what comes last. -/
def alternatives (rs : List (Rule Γ α)) (last : Rule Γ α) : Rule Γ α :=
  rs.foldr orElse last

/-- The second rule is run from where the first began, if that failed. -/
theorem orElse_run (r others : Rule Γ α) : (r.orElse others).run limits ρ s =
    (r.run limits ρ s).orElse fun t =>
      (State.moveTo s.cursor t).andThen fun _ => others.run limits ρ := by
  show (Behaviour.attempt (Behaviour.rewind (r.run limits ρ)) s).andThen _ = _
  rw [Behaviour.attempt, Behaviour.rewind]
  cases r.run limits ρ s with
  | failed t =>
    rw [Run.orElse, Run.orElse, State.moveTo]
    split <;> rfl
  | done | fault | unfinished => rfl

/-- The same of the first of a row, with all others behind it. -/
theorem alternatives_cons_run (r : Rule Γ α) (rs : List (Rule Γ α)) (last : Rule Γ α) :
    (alternatives (r :: rs) last).run limits ρ s = (r.run limits ρ s).orElse fun t =>
      (State.moveTo s.cursor t).andThen fun _ => (alternatives rs last).run limits ρ :=
  orElse_run r _

/-- Where all fail, a choice raises the failure that the slot holds then. -/
theorem oneOf_run {rs : List (Rule Γ α)} (nonempty : rs ≠ []) :
    (oneOf rs).run limits ρ = (alternatives rs raise).run limits ρ := by
  induction rs with
  | nil => exact absurd rfl nonempty
  | cons r rs ih =>
    funext s
    cases rs with
    | nil =>
      rw [alternatives_cons_run]
      rfl
    | cons r' rs =>
      show (r.orElse (oneOf (r' :: rs))).run limits ρ s = _
      rw [orElse_run, alternatives_cons_run, ih (List.cons_ne_nil r' rs)]

/-- What a row of alternatives does from `s` with `f` in the slot, told from what each of them
does alone, whatever comes last. -/
inductive Tries (limits : Limits) (ρ : Environment Γ) (s : State) (f : Failure)
    (rs : List (Rule Γ α)) : Prop
  /-- One succeeds, and all before it fail. -/
  | done {before after : List (Rule Γ α)} {r : Rule Γ α} {a : α} {t : State} {g : Failure}
      (split : rs = before ++ r :: after) (fail : ∀ b ∈ before, ∃ u, b.run limits ρ s = .failed u)
      (first : r.run limits ρ s = .done a t)
      (run : ∀ last, (alternatives rs last).run limits ρ { s with failure := f } =
        .done a { t with failure := g })
  /-- All fail. The failure of the last one, if there is any, is left. -/
  | failed {g : Failure} (fail : ∀ r ∈ rs, ∃ u, r.run limits ρ s = .failed u)
      (left : rs = [] ∧ g = f ∨
        ∃ front r u, rs = front ++ [r] ∧ r.run limits ρ s = .failed u ∧ g = u.failure)
      (run : ∀ last, (alternatives rs last).run limits ρ { s with failure := f } =
        last.run limits ρ { s with failure := g })
  /-- It comes to no end. -/
  | stuck (run : ∀ last,
      ¬ ((alternatives rs last).run limits ρ { s with failure := f }).Ended)

namespace Tries

variable {f : Failure} {rs : List (Rule Γ α)}

/-- An alternative that fails hands its failure on. The others are then told from the same state,
with this failure in the slot. -/
theorem cons (fails : r.run limits ρ s = .failed t)
    (goOn : ∀ last, (alternatives (r :: rs) last).run limits ρ { s with failure := f } =
      (alternatives rs last).run limits ρ { s with failure := t.failure })
    (h : Tries limits ρ s t.failure rs) : Tries limits ρ s f (r :: rs) := by
  cases h with
  | @done before after r' a t' g split fail first run =>
    have later : r :: rs = (r :: before) ++ r' :: after := congrArg (r :: ·) split
    exact .done later (List.forall_mem_cons.2 ⟨⟨t, fails⟩, fail⟩) first
      fun last => (goOn last).trans (run last)
  | failed fail left run =>
    refine .failed (List.forall_mem_cons.2 ⟨⟨t, fails⟩, fail⟩) (.inr ?_)
      fun last => (goOn last).trans (run last)
    obtain ⟨rfl, rfl⟩ | ⟨front, r', u, rfl, fails', rfl⟩ := left
    · exact ⟨[], r, t, rfl, fails, rfl⟩
    · exact ⟨r :: front, r', u, rfl, fails', rfl⟩
  | stuck run =>
    refine .stuck fun last => ?_
    rw [goOn]
    exact run last

end Tries

end Rule

/-! ## Choices -/

namespace Parser

variable {alternatives : List (String × Parser Γ α)} {limits : Limits} {ρ : Environment Γ}

end Parser

end Descent
