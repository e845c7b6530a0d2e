/-
Choices within choices.

A choice that is an alternative of another one may as well lend its alternatives to that
(`Parser.oneOf_flatten`). Both try the same parsers in the same order and from the same place, and
between two of them nothing happens but that the cursor is taken back. Where the inner choice
comes to its end, the cursor is taken back twice, which is once too often and does no harm, and
the failure that it raises again is the one that its last alternative has left in the slot.

This takes an inner choice that has alternatives. One without any fails on its own account and
hides the failure that was there.

Nothing is asked of the alternatives here. They may look at the slot and keep places, so what one
of them does depends on what those before it left. All that a choice in which all fail comes to is
told by `Rule.FailInTurn`.
-/
import Descent.Proofs.Choice

set_option autoImplicit false

namespace Descent

open Text

variable {Γ : Scope} {α : Type}

namespace Rule

variable {limits : Limits} {ρ : Environment Γ} {s v : State} {r : Rule Γ α} {rs : List (Rule Γ α)}

/-! ## Alternatives of alternatives -/

/-- A row of alternatives is cut anywhere by taking the back part for what comes last. -/
theorem alternatives_append (rs rs' : List (Rule Γ α)) (last : Rule Γ α) :
    alternatives (rs ++ rs') last = alternatives rs (alternatives rs' last) :=
  List.foldr_append

/-- What comes last counts for what it does, so a row may end in any rule that runs the same. -/
theorem alternatives_run_congr {last last' : Rule Γ α}
    (same : last.run limits ρ = last'.run limits ρ) (rs : List (Rule Γ α)) :
    (alternatives rs last).run limits ρ = (alternatives rs last').run limits ρ := by
  induction rs with
  | nil => exact same
  | cons r rs ih =>
    funext s
    rw [alternatives_cons_run, alternatives_cons_run, ih]

/-- To raise the failure in the end, and to go back and on with the others, is to go on with them
at once. Without any alternative this takes a place to stand at; an alternative that has failed has
found its way to one. -/
theorem alternatives_raise_orElse (rs : List (Rule Γ α)) (others : Rule Γ α)
    (h : rs ≠ [] ∨ IsPlace s.cursor s.text = true) :
    ((alternatives rs raise).run limits ρ s).orElse (fun t =>
        (State.moveTo s.cursor t).andThen fun _ => others.run limits ρ) =
      (alternatives rs others).run limits ρ s := by
  -- Along the alternatives, each of which begins where the first one did.
  induction rs generalizing s with
  | nil =>
    have place := h.resolve_left (absurd rfl)
    show (State.moveTo s.cursor s).andThen _ = others.run limits ρ s
    rw [State.moveTo, if_pos place]
    rfl
  | cons r rs ih =>
    rw [alternatives_cons_run, alternatives_cons_run]
    cases r.run limits ρ s with
    | failed t =>
      by_cases place : IsPlace s.cursor t.text = true
      · simp only [Run.orElse, State.moveTo, if_pos place, Run.andThen]
        exact ih (.inr place)
      · simp only [Run.orElse, State.moveTo, if_neg place, Run.andThen]
    | done | fault | unfinished => rfl

/-- A choice in front of the others is each of its alternatives in front of them. -/
theorem orElse_oneOf_run (nonempty : rs ≠ []) (others : Rule Γ α) :
    ((oneOf rs).orElse others).run limits ρ = (alternatives rs others).run limits ρ := by
  funext s
  rw [orElse_run, oneOf_run nonempty]
  exact alternatives_raise_orElse rs others (.inl nonempty)

/-- **A choice within a choice lends it its alternatives.** The front part is the same row on both
sides, so it is enough to compare from the inner choice on. -/
theorem oneOf_run_flatten (front back : List (Rule Γ α)) (nonempty : rs ≠ []) :
    (oneOf (front ++ [oneOf rs] ++ back)).run limits ρ =
      (oneOf (front ++ rs ++ back)).run limits ρ := by
  have nested : front ++ [oneOf rs] ++ back ≠ [] := by simp
  have flat : front ++ rs ++ back ≠ [] := by simp [nonempty]
  calc (oneOf (front ++ [oneOf rs] ++ back)).run limits ρ
      = (alternatives (front ++ [oneOf rs] ++ back) raise).run limits ρ := oneOf_run nested
    _ = (alternatives front ((oneOf rs).orElse (alternatives back raise))).run limits ρ := by
      rw [List.append_assoc, alternatives_append]
      rfl
    _ = (alternatives front (alternatives rs (alternatives back raise))).run limits ρ :=
      alternatives_run_congr (orElse_oneOf_run nonempty _) front
    _ = (alternatives (front ++ rs ++ back) raise).run limits ρ := by
      rw [List.append_assoc, alternatives_append, alternatives_append]
    _ = (oneOf (front ++ rs ++ back)).run limits ρ := (oneOf_run flat).symm

/-! ## Where all alternatives fail -/

/-- From the first state on, the rules fail one after the other, each from where the first of them
began and with what the one before it left. The second state is what the last one leaves, with the
cursor taken back. -/
inductive FailInTurn (limits : Limits) (ρ : Environment Γ) : State → List (Rule Γ α) → State → Prop
  | nil (s : State) : FailInTurn limits ρ s [] s
  | cons {s t v : State} {r : Rule Γ α} {rs : List (Rule Γ α)}
      (fails : r.run limits ρ s = .failed t) (place : IsPlace s.cursor t.text = true)
      (others : FailInTurn limits ρ { t with cursor := s.cursor } rs v) :
      FailInTurn limits ρ s (r :: rs) v

namespace FailInTurn

/-- Each alternative has been taken back, the last one too. -/
theorem cursor_eq (h : FailInTurn limits ρ s rs v) : v.cursor = s.cursor := by
  induction h with
  | nil s => rfl
  | cons _ _ _ ih => exact ih

/-- What is left is the failure of the last rule, at the place where that reported it. -/
theorem exists_last (h : FailInTurn limits ρ s rs v) (nonempty : rs ≠ []) :
    ∃ front r t u, rs = front ++ [r] ∧ FailInTurn limits ρ s front t ∧
      r.run limits ρ t = .failed u ∧ v = { u with cursor := s.cursor } := by
  induction h with
  | nil s => exact absurd rfl nonempty
  | @cons s t v r rs fails place others ih =>
    by_cases more : rs = []
    · subst more
      cases others
      exact ⟨[], r, _, t, rfl, .nil _, fails, rfl⟩
    · obtain ⟨front, r', t', u, rfl, before, fails', rfl⟩ := ih more
      exact ⟨r :: front, r', t', u, rfl, .cons fails place before, fails', rfl⟩

end FailInTurn

/-- By induction on the row: the failure raised in the end is what the last alternative left, since
going back leaves the slot alone. -/
theorem alternatives_raise_run_eq_failed_iff :
    (alternatives rs raise).run limits ρ s = .failed v ↔ FailInTurn limits ρ s rs v := by
  induction rs generalizing s with
  | nil =>
    constructor
    · rintro ⟨⟩
      exact .nil _
    · rintro ⟨⟩
      rfl
  | cons r rs ih =>
    rw [alternatives_cons_run, Run.orElse_eq_failed_iff]
    constructor
    · rintro ⟨t, fails, goOn⟩
      obtain never | ⟨u, w, moved, others⟩ := Run.andThen_eq_failed_iff.1 goOn
      · exact absurd never State.moveTo_ne_failed
      · obtain ⟨place, rfl⟩ := State.moveTo_eq_done_iff.1 moved
        exact .cons fails place (ih.1 others)
    · rintro (_ | ⟨fails, place, others⟩)
      refine ⟨_, fails, ?_⟩
      rw [State.moveTo, if_pos place]
      exact ih.2 others

/-- A choice fails where all its alternatives fail in turn. -/
theorem oneOf_run_eq_failed_iff (nonempty : rs ≠ []) :
    (oneOf rs).run limits ρ s = .failed v ↔ FailInTurn limits ρ s rs v := by
  rw [oneOf_run nonempty, alternatives_raise_run_eq_failed_iff]

end Rule

namespace Parser

/-- **Nested choices flatten.** A choice among whose alternatives there is a choice does the same
from every state as one that has the alternatives of the inner choice in its place: they end alike,
with the same value and the same state. They fail where all alternatives, the inner ones included,
fail in turn. Then the cursor is back, and the failure is that of the very last alternative, which
began there as well, however deep in the text it failed. -/
theorem oneOf_flatten (front back : List (Parser Γ α)) {inner : List (Parser Γ α)}
    (nonempty : inner ≠ []) (limits : Limits) (ρ : Environment Γ) (s : State) :
    let nested := (oneOf (front ++ [oneOf inner] ++ back)).rule.run limits ρ s
    let flat := (oneOf (front ++ inner ++ back)).rule.run limits ρ s
    nested = flat ∧
      (∀ v, nested = .failed v ↔
        Rule.FailInTurn limits ρ s ((front ++ inner ++ back).map rule) v) ∧
      ∀ v, nested = .failed v → v.cursor = s.cursor ∧
        ∃ before last t u, front ++ inner ++ back = before ++ [last] ∧
          Rule.FailInTurn limits ρ s (before.map rule) t ∧ t.cursor = s.cursor ∧
          last.rule.run limits ρ t = .failed u ∧ v.failure = u.failure := by
  intro nested flat
  have same : nested = flat := by
    show (Rule.oneOf ((front ++ [oneOf inner] ++ back).map rule)).run limits ρ s =
      (Rule.oneOf ((front ++ inner ++ back).map rule)).run limits ρ s
    simp only [List.map_append, List.map_singleton]
    exact congrFun (Rule.oneOf_run_flatten _ _ (mt List.map_eq_nil_iff.1 nonempty)) s
  have alternatives : (front ++ inner ++ back).map rule ≠ [] := by simp [nonempty]
  have failed_iff (v : State) : nested = .failed v ↔
      Rule.FailInTurn limits ρ s ((front ++ inner ++ back).map rule) v := by
    rw [same]
    exact Rule.oneOf_run_eq_failed_iff alternatives
  refine ⟨same, failed_iff, fun v failed => ?_⟩
  have inTurn := (failed_iff v).1 failed
  obtain ⟨rs, r, t, u, split, before, fails, left⟩ := inTurn.exists_last alternatives
  obtain ⟨parsers, rest, whole, rfl, behind⟩ := List.map_eq_append_iff.1 split
  obtain ⟨last, rfl, rfl⟩ := List.map_eq_singleton_iff.1 behind
  refine ⟨inTurn.cursor_eq, parsers, last, t, u, whole, before, before.cursor_eq, fails, ?_⟩
  rw [left]

/-- The choice has come to its last alternative, which is one of the inner choice and fails behind
a character of two bytes. -/
theorem oneOf_flatten_deep :
    let letter : Parser [] (Char × Char) := (char 'a').pair (char 'a')
    let inner : List (Parser [] (Char × Char)) :=
      [(char 'ż').pair (char 'b'), (char 'ż').pair (char 'c')]
    let s : State := State.start "żd"
    let v : State := { s with failure := ⟨.literalMismatch, "Expected 'c', but got 'd'.", 2⟩ }
    inner ≠ [] ∧
      (oneOf ([letter] ++ [oneOf inner] ++ [])).rule.run ⟨1, 1⟩ .undefined s = .failed v ∧
      (oneOf ([letter] ++ inner ++ [])).rule.run ⟨1, 1⟩ .undefined s = .failed v := by
  intro letter inner s v
  have nonempty : inner ≠ [] := List.cons_ne_nil _ _
  have flat : (oneOf ([letter] ++ inner ++ [])).rule.run ⟨1, 1⟩ .undefined s = .failed v := by
    decide +kernel
  obtain ⟨same, -⟩ := oneOf_flatten [letter] [] nonempty ⟨1, 1⟩ .undefined s
  exact ⟨nonempty, same.trans flat, flat⟩

/-- An inner choice without alternatives hides the failure before it. -/
example :
    let letter : Parser [] Char := char 'a'
    let s : State := State.start "d"
    (oneOf ([letter] ++ [oneOf []] ++ [])).rule.run ⟨1, 1⟩ .undefined s =
        .failed { s with failure := .ofCause .noAlternatives 0 } ∧
      (oneOf ([letter] ++ [] ++ [])).rule.run ⟨1, 1⟩ .undefined s =
        .failed { s with failure := .ofCause (.otherChar 'a' 'd') 0 } := by
  decide +kernel

end Parser

end Descent
