/-
The failure slot has no say in a run.

A run writes its last failure into the slot, and what the slot held before is nothing to
it: for a blind rule, two runs from one place of one text end alike whatever the slots
held. Where they fail, the whole states are equal, so the failure that is reported was
recorded in the run itself. Where they succeed, the slots are equal too, or neither run
has touched its slot.
-/
import Descent.Proofs.Confinement

set_option autoImplicit false

namespace Descent

variable {Γ : Scope} {α : Type}

/-- **A stale failure never leaks.** Only what the slot holds after a success without a
failure can be what it held before. -/
theorem Rule.Blind.run_whatever_failure {r : Rule Γ α} (h : r.Blind) (limits : Limits) (s : State)
    (f g : Failure) :
    match r.run limits .undefined { s with failure := f } with
    | .done a t =>
      r.run limits .undefined { s with failure := g } = .done a t ∨
        t.failure = f ∧
          r.run limits .undefined { s with failure := g } = .done a { t with failure := g }
    | ended => r.run limits .undefined { s with failure := g } = ended := by
  have tied := Rule.Within.tied (fun _ ho => Operation.tied_of_isBlind ho) limits h
    Environment.Tied.undefined { s with failure := f } { s with failure := g }
    (State.aligned_withFailure _ g) (by simp)
  generalize r.run limits .undefined { s with failure := f } = q at tied ⊢
  dsimp only at tied ⊢
  generalize r.run limits .undefined { s with failure := g } = q' at tied ⊢
  cases tied with
  | @done a t t' aligned slots =>
    rw [aligned.eq_of_nil]
    rcases slots with agree | ⟨ht, ht'⟩
    · -- Both runs recorded one failure after they began.
      left
      rw [agree]
      simp [Failure.shift]
    · -- Neither recorded any.
      right
      exact ⟨ht, by rw [ht']⟩
  | @failed t t' aligned agree =>
    dsimp only
    rw [aligned.eq_of_nil, agree]
    simp [Failure.shift]
  | fault => rfl
  | unfinished => rfl

/-- An old failure in the slot is gone where a rule raises the one it holds: the mismatch of
the last attempt, and not what stood there before. -/
theorem Rule.Blind.run_whatever_failure_raised :
    let r : Rule [] String :=
      .handle (.literal "x") .pure (.bind (.many (.literal "a")) fun _ => .raise)
    r.Blind ∧
      r.run ⟨1, 4⟩ .undefined { State.start "aab" with failure := ⟨.noAlternativeMatched, "?", 9⟩ } =
        .failed ⟨['a', 'a', 'b'], 2, ⟨.literalMismatch, "Expected 'a', but got 'b'.", 2⟩, []⟩ := by
  have blind : Rule.Blind (Γ := []) (.handle (.literal "x") .pure
      (.bind (.many (.literal "a")) fun _ => .raise)) := by
    simp [Rule.Blind, Rule.Within, Rule.literal, Operation.isBlind]
  exact ⟨blind, Rule.Blind.run_whatever_failure blind ⟨1, 4⟩ (State.start "aab") {}
    ⟨.noAlternativeMatched, "?", 9⟩⟩

end Descent
