/-
How chains run.

A chain is a term and a repetition of links, each a separator and the term behind it. So what
was said of repetitions says all about chains. The links are the row of those that succeed from
the first term on, and a chain goes back behind the last of them: a separator without a term is
part of the attempt that failed, however much of the text it went through.

Where the first term fails, the chain that needs one fails where it began, and the chain that
needs none is empty and stands there. The folds are made from the latter, and fail afresh where
it is empty. This failure says the same as the one before, so a fold ends in a failure just as
the chain that needs a term does (`Rule.fold_run_eq_failed_iff`).
-/
import Descent.Proofs.ChainReading
import Descent.Proofs.Repetition

set_option autoImplicit false

namespace Descent

open Text

variable {Γ : Scope} {τ σ : Type}

namespace Rule

variable {limits : Limits} {ρ : Environment Γ} {term : Rule Γ τ} {separator : Rule Γ σ}
  {s v : State} {c : Chain τ σ} {a : τ}

/-! ## The chain that needs a term -/

/-- What such a chain does when the first term was attempted. -/
def behindFirst (limits : Limits) (ρ : Environment Γ) (term : Rule Γ τ) (separator : Rule Γ σ) :
    Option τ → Behaviour (Chain τ σ)
  | none => State.fail .noTerms
  | some head => fun t =>
    ((many (link term separator)).run limits ρ t).map fun tail => .links head tail

/-- The run of such a chain, cut behind its first term. From here on the lemmas on endings take it
apart. -/
theorem chain1_run : (chain1 term separator).run limits ρ =
    Behaviour.atomically (Behaviour.andThen (Behaviour.attempt (term.run limits ρ))
      (behindFirst limits ρ term separator)) := by
  refine congrArg Behaviour.atomically (congrArg (Behaviour.andThen _) (funext fun o => ?_))
  cases o <;> rfl

/-- It comes to a value where a term is there and the links come to an end, and they do so without a
failure. -/
theorem chain1_run_eq_done_iff : (chain1 term separator).run limits ρ s = .done c v ↔
    ∃ head t tail, term.run limits ρ s = .done head t ∧
      (many (link term separator)).run limits ρ t = .done tail v ∧ c = .links head tail := by
  rw [chain1_run, Behaviour.atomically_eq_done_iff, Behaviour.andThen, Run.andThen_eq_done_iff]
  simp only [Behaviour.attempt_eq_done_iff]
  constructor
  · rintro ⟨_, t, ⟨head, rfl, first⟩ | ⟨rfl, -⟩, behind⟩
    · obtain ⟨tail, repeated, rfl⟩ := Run.map_eq_done_iff.1 behind
      exact ⟨head, t, tail, first, repeated, rfl⟩
    · cases behind
  · rintro ⟨head, t, tail, first, repeated, rfl⟩
    exact ⟨some head, t, .inl ⟨head, rfl, first⟩, Run.map_eq_done_iff.2 ⟨tail, repeated, rfl⟩⟩

/-- Such a chain fails where its first term does, and takes back all of that. -/
theorem chain1_run_eq_failed_iff : (chain1 term separator).run limits ρ s = .failed v ↔
    ∃ u, term.run limits ρ s = .failed u ∧ IsPlace s.cursor u.text = true ∧
      v = { u with cursor := s.cursor, failure := .ofCause .noTerms s.cursor } := by
  rw [chain1_run, Behaviour.atomically_eq_failed_iff]
  simp only [Behaviour.andThen, Run.andThen_eq_failed_iff, Behaviour.attempt_eq_done_iff]
  constructor
  · rintro ⟨t, never | ⟨_, u, ⟨head, rfl, first⟩ | ⟨rfl, first⟩, behind⟩, place, rfl⟩
    · exact absurd never Behaviour.attempt_ne_failed
    · -- The links are repeated, and that does not fail either.
      exact absurd (Run.map_eq_failed_iff.1 behind) Behaviour.repeatedly_ne_failed
    · cases behind
      exact ⟨u, first, place, rfl⟩
  · rintro ⟨u, first, place, rfl⟩
    exact ⟨_, .inr ⟨none, u, .inr ⟨rfl, first⟩, rfl⟩, place, rfl⟩

/-! ## The chain that needs none -/

/-- A chain is one with a term, or else none, from where that was taken back. -/
theorem chain_run : (chain term separator).run limits ρ s =
    ((chain1 term separator).run limits ρ s).orElse fun t => .done .empty t := by
  show (Behaviour.attempt (Behaviour.atomically ((chain1 term separator).run limits ρ)) s).andThen
    (fun o => ((pure (o.getD .empty) : Rule Γ (Chain τ σ)).run limits ρ)) = _
  cases first : (chain1 term separator).run limits ρ s with
  | done c t => rw [Behaviour.attempt, Behaviour.atomically, first]; rfl
  | failed t =>
    -- What was taken back already is taken back once more.
    have again : Behaviour.atomically ((chain1 term separator).run limits ρ) s = .failed t := by
      obtain ⟨u, -, place, rfl⟩ := chain1_run_eq_failed_iff.1 first
      exact Behaviour.atomically_eq_failed_iff.2 ⟨_, first, place, rfl⟩
    rw [Behaviour.attempt, again]
    rfl
  | fault | unfinished => rw [Behaviour.attempt, Behaviour.atomically, first]; rfl

/-- There are two ways to have a chain, and a failure of the first term is one of them. -/
theorem chain_run_eq_done_iff : (chain term separator).run limits ρ s = .done c v ↔
    (chain1 term separator).run limits ρ s = .done c v ∨
      c = .empty ∧ (chain1 term separator).run limits ρ s = .failed v := by
  rw [chain_run, Run.orElse_eq_done_iff]
  refine or_congr_right ?_
  constructor
  · rintro ⟨t, failed, ⟨⟩⟩
    exact ⟨rfl, failed⟩
  · rintro ⟨rfl, failed⟩
    exact ⟨v, failed, rfl⟩

/-- For a missing term is no failure here, and a missing link none anywhere. -/
theorem chain_run_ne_failed : (chain term separator).run limits ρ s ≠ .failed v := by
  rw [chain_run, ne_eq, Run.orElse_eq_failed_iff]
  rintro ⟨t, -, failed⟩
  cases failed

/-- Both kinds of chain run on, or come to a fault, on the same occasions. -/
theorem chain_run_ended_iff : ((chain term separator).run limits ρ s).Ended ↔
    ((chain1 term separator).run limits ρ s).Ended := by
  rw [chain_run]
  cases (chain1 term separator).run limits ρ s <;> exact Iff.rfl

/-! ## Folds -/

section Folds

variable {f : Chain τ σ → Option τ}

/-- A chain with what is made of it; there is none of a chain without terms. -/
def fold (term : Rule Γ τ) (separator : Rule Γ σ) (f : Chain τ σ → Option τ) : Rule Γ τ :=
  chain term separator >>= fun c =>
    match f c with
    | some a => pure a
    | none => fail .noTerms

/-- The run of a fold, with what is made of the chain behind it. -/
theorem fold_run : (fold term separator f).run limits ρ s =
    ((chain term separator).run limits ρ s).andThen fun c =>
      match f c with
      | some a => Behaviour.pure a
      | none => State.fail .noTerms := by
  refine congrArg (Run.andThen _) (funext fun c => ?_)
  dsimp only
  cases f c <;> rfl

/-- A fold has a value where the chain that needs a term has one. The empty chain is folded to
nothing, so it does not count. -/
theorem fold_run_eq_done_iff (empty : f .empty = none) :
    (fold term separator f).run limits ρ s = .done a v ↔
      ∃ c, (chain1 term separator).run limits ρ s = .done c v ∧ f c = some a := by
  rw [fold_run, Run.andThen_eq_done_iff]
  constructor
  · rintro ⟨c, t, read, folded⟩
    cases value : f c with
    | none => rw [value] at folded; cases folded
    | some b =>
      rw [value] at folded
      cases folded
      obtain read | ⟨rfl, -⟩ := chain_run_eq_done_iff.1 read
      · exact ⟨c, read, value⟩
      · rw [empty] at value
        cases value
  · rintro ⟨c, read, value⟩
    refine ⟨c, v, chain_run_eq_done_iff.2 (.inl read), ?_⟩
    rw [value]
    rfl

/-- A fold fails where there is no first term, and says so. -/
theorem fold_run_eq_failed_iff (empty : f .empty = none)
    (nonempty : ∀ head tail, f (.links head tail) ≠ none) :
    (fold term separator f).run limits ρ s = .failed v ↔
      (chain1 term separator).run limits ρ s = .failed v := by
  rw [fold_run, Run.andThen_eq_failed_iff, or_iff_right chain_run_ne_failed]
  constructor
  · rintro ⟨c, t, read, folded⟩
    obtain read | ⟨rfl, failed⟩ := chain_run_eq_done_iff.1 read
    · obtain ⟨head, -, tail, -, -, rfl⟩ := chain1_run_eq_done_iff.1 read
      cases value : f (.links head tail) with
      | none => exact absurd value (nonempty head tail)
      | some b => rw [value] at folded; cases folded
    · rw [empty] at folded
      cases folded
      rw [failed]
      obtain ⟨u, -, -, rfl⟩ := chain1_run_eq_failed_iff.1 failed
      rfl
  · intro failed
    refine ⟨.empty, v, chain_run_eq_done_iff.2 (.inr ⟨rfl, failed⟩), ?_⟩
    rw [empty]
    -- What is recorded here stands in the slot already.
    obtain ⟨u, -, -, rfl⟩ := chain1_run_eq_failed_iff.1 failed
    rfl

/-- A fold ends by itself only where the chain that needs a term does. -/
theorem fold_run_ended (empty : f .empty = none)
    (nonempty : ∀ head tail, f (.links head tail) ≠ none)
    (ended : ((fold term separator f).run limits ρ s).Ended) :
    ((chain1 term separator).run limits ρ s).Ended := by
  rw [Run.ended_iff] at ended ⊢
  obtain ⟨a, v, done⟩ | ⟨v, failed⟩ := ended
  · obtain ⟨c, done, -⟩ := (fold_run_eq_done_iff empty).1 done
    exact .inl ⟨c, v, done⟩
  · exact .inr ⟨v, (fold_run_eq_failed_iff empty nonempty).1 failed⟩

end Folds

end Rule

/-! ## Chains are maximal -/

namespace Parser

/-- **Chains are maximal, and the four kinds of them agree.** Where the first term fails, a chain
that needs one fails where it began, as the folds do, and one that needs none is empty there.
Otherwise its links are the row of separators with terms behind the first term, with the cursor
behind the last of them, and the folds are folds of this very chain. None of the four ends in
another way. A chain has one separator fewer than it has terms, or none of either. -/
theorem chain_run_maximal (term : Parser Γ τ) (separator : Parser Γ σ) (combine : τ → τ → σ → τ)
    (limits : Limits) (ρ : Environment Γ) (s : State) :
    let first := term.rule.run limits ρ s
    let link := (separator.pair term).rule.run limits ρ
    let chain1 := (term.chain1 separator).rule.run limits ρ s
    let chain := (term.chain separator).rule.run limits ρ s
    let left := (term.chainLeft separator combine).rule.run limits ρ s
    let right := (term.chainRight separator combine).rule.run limits ρ s
    (∀ u, first = .failed u → IsPlace s.cursor u.text = true →
      let v : State := { u with cursor := s.cursor, failure := .ofCause .noTerms s.cursor }
      chain1 = .failed v ∧ chain = .done .empty v ∧ left = .failed v ∧ right = .failed v) ∧
    (∀ head t links last failing, first = .done head t → link.Iterates t links last failing →
      links.length < limits.rounds → IsPlace last.cursor failing.text = true →
      let v : State := { failing with cursor := last.cursor }
      let c : Chain τ σ := .links head links
      c.terms = head :: links.map Prod.snd ∧ c.separators = links.map Prod.fst ∧
      chain1 = .done c v ∧ chain = .done c v ∧
      (∃ a, c.foldLeft combine = some a ∧ left = .done a v) ∧
      ∃ a, c.foldRight combine = some a ∧ right = .done a v) ∧
    (chain1.Ended ∨ chain.Ended ∨ left.Ended ∨ right.Ended →
      (∃ u, first = .failed u ∧ IsPlace s.cursor u.text = true) ∨
      ∃ head t links last failing, first = .done head t ∧ link.Iterates t links last failing ∧
        links.length < limits.rounds ∧ IsPlace last.cursor failing.text = true) ∧
    ∀ c v, chain1 = .done c v ∨ chain = .done c v →
      c.terms.length = c.separators.length + 1 ∨ c.terms = [] ∧ c.separators = [] := by
  intro first link chain1 chain left right
  have leftTotal : ∀ head tail, Chain.foldLeft combine (.links head tail) ≠ none :=
    fun head tail h => by cases h
  have rightTotal : ∀ head tail, Chain.foldRight combine (.links head tail) ≠ none :=
    fun head tail h => by cases h
  refine ⟨?_, ?_, ?_, ?_⟩
  · intro u fails place v
    have failed : chain1 = .failed v := Rule.chain1_run_eq_failed_iff.2 ⟨u, fails, place, rfl⟩
    exact ⟨failed, Rule.chain_run_eq_done_iff.2 (.inr ⟨rfl, failed⟩),
      (Rule.fold_run_eq_failed_iff rfl leftTotal).2 failed,
      (Rule.fold_run_eq_failed_iff rfl rightTotal).2 failed⟩
  · intro head t links last failing begins row fewer place v c
    have repeated : (separator.pair term).many.rule.run limits ρ t = .done links v :=
      Behaviour.repeatedly_eq_done_iff.2 ⟨fewer, last, failing, row, place, rfl⟩
    have done : chain1 = .done c v :=
      Rule.chain1_run_eq_done_iff.2 ⟨head, t, links, begins, repeated, rfl⟩
    exact ⟨rfl, rfl, done, Rule.chain_run_eq_done_iff.2 (.inl done),
      ⟨_, rfl, (Rule.fold_run_eq_done_iff rfl).2 ⟨c, done, rfl⟩⟩,
      _, rfl, (Rule.fold_run_eq_done_iff rfl).2 ⟨c, done, rfl⟩⟩
  · intro ended
    have ended1 : chain1.Ended := by
      obtain ended | ended | ended | ended := ended
      · exact ended
      · exact Rule.chain_run_ended_iff.1 ended
      · exact Rule.fold_run_ended rfl leftTotal ended
      · exact Rule.fold_run_ended rfl rightTotal ended
    obtain ⟨c, v, done⟩ | ⟨v, failed⟩ := Run.ended_iff.1 ended1
    · obtain ⟨head, t, links, begins, repeated, -⟩ := Rule.chain1_run_eq_done_iff.1 done
      obtain ⟨fewer, last, failing, row, place, -⟩ := Behaviour.repeatedly_eq_done_iff.1 repeated
      exact .inr ⟨head, t, links, last, failing, begins, row, fewer, place⟩
    · obtain ⟨u, fails, place, -⟩ := Rule.chain1_run_eq_failed_iff.1 failed
      exact .inl ⟨u, fails, place⟩
  · intro c v _
    cases c with
    | empty => exact .inr ⟨rfl, rfl⟩
    | links head tail => exact .inl (by simp [Chain.terms, Chain.separators])

/-- Behind the last term stands a separator of three bytes, and then nothing. -/
theorem chain_run_maximal_dangling :
    let term : Parser [] Int := (charIn ['8', '4', '2']).map fun c => (c.toNat : Int) - 48
    let separator : Parser [] (Char × Char) := (char 'ż').pair (char '-')
    let difference (lhs rhs : Int) (_ : Char × Char) : Int := lhs - rhs
    let s : State := State.start "8ż-4ż-2ż-"
    let behind : State := { s with cursor := 1 }
    let v : State :=
      { s with cursor := 9, failure := ⟨.unexpectedEnd, Cause.endOfText.message, 12⟩ }
    (term.chain1 separator).rule.run ⟨1, 3⟩ .undefined s =
      .done (.links 8 [(('ż', '-'), 4), (('ż', '-'), 2)]) v ∧
    (term.chainLeft separator difference).rule.run ⟨1, 3⟩ .undefined s = .done 2 v ∧
    (term.chainRight separator difference).rule.run ⟨1, 3⟩ .undefined s = .done 6 v ∧
    (term.chain separator).rule.run ⟨1, 3⟩ .undefined behind =
      .done .empty { behind with failure := ⟨.emptyRepetition, Cause.noTerms.message, 1⟩ } := by
  intro term separator difference s behind v
  have head : term.rule.run ⟨1, 3⟩ .undefined s = .done 8 behind := by decide +kernel
  have first : (separator.pair term).rule.run ⟨1, 3⟩ .undefined behind =
      .done (('ż', '-'), 4) { s with cursor := 5 } := by decide +kernel
  have second : (separator.pair term).rule.run ⟨1, 3⟩ .undefined { s with cursor := 5 } =
      .done (('ż', '-'), 2) { s with cursor := 9 } := by decide +kernel
  have fails : (separator.pair term).rule.run ⟨1, 3⟩ .undefined { s with cursor := 9 } =
      .failed { v with cursor := 12 } := by decide +kernel
  obtain ⟨-, -, done, -, ⟨a, foldedLeft, left⟩, b, foldedRight, right⟩ :=
    (chain_run_maximal term separator difference ⟨1, 3⟩ .undefined s).2.1 8 behind
      [(('ż', '-'), 4), (('ż', '-'), 2)] { s with cursor := 9 } { v with cursor := 12 } head
      ⟨.cons first (.cons second (.nil _)), fails⟩ (by decide) (by decide +kernel)
  have stops : term.rule.run ⟨1, 3⟩ .undefined behind =
      .failed (behind.record (.unlistedChar ['8', '4', '2'] 'ż')) := by decide +kernel
  obtain ⟨-, empty, -⟩ :=
    (chain_run_maximal term separator difference ⟨1, 3⟩ .undefined behind).1 _ stops
      (by decide +kernel)
  cases foldedLeft
  cases foldedRight
  exact ⟨done, left, right, empty⟩

end Parser

end Descent
