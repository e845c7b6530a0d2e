/-
Again and again.

To repeat a parser is to run it time after time, each time from where the time before left,
until it fails. So the values of a repetition are told from the parser alone: they are those
with which it succeeds in a row, and behind them comes the attempt that fails
(`Behaviour.Iterates`). A run from one state has one outcome, so there is one such row.

A repetition comes to just these values (`Parser.many_run_maximal`). It goes back behind the
last of them, however far the attempt that failed had come, and leaves the failure of that
attempt in the slot. At least one element is demanded by the same repetition with a failure of
its own where the row is empty.

The row may be longer than the rounds allow, and the state may stand where no place is to go
back to. These are the two conditions under which a repetition of a row does not end.
-/
import Descent.Parser.Combinators
import Descent.Proofs.Endings

set_option autoImplicit false

namespace Descent

open Text

variable {Γ : Scope} {α : Type}

/-! ## Rows of successes -/

namespace Behaviour

/-- From the first state on, the behaviour succeeds with these values, one after the other, each
time from the state that the time before left. The last one leaves the second state. -/
inductive Succeeds (b : Behaviour α) : State → List α → State → Prop
  | nil (s : State) : Succeeds b s [] s
  | cons {s t u : State} {a : α} {as : List α} (first : b s = .done a t)
      (others : Succeeds b t as u) : Succeeds b s (a :: as) u

/-- From `s` on, the behaviour succeeds with these values in a row, the last of which leaves
`last`, and the attempt after that fails and leaves `failing`. -/
structure Iterates (b : Behaviour α) (s : State) (values : List α) (last failing : State) :
    Prop where
  succeeds : b.Succeeds s values last
  fails : b last = .failed failing

variable {b : Behaviour α} {s t last failing : State} {a : α} {as : List α}

/-- The row is empty where the behaviour fails at once, and then it ends where it began. -/
theorem iterates_nil_iff : b.Iterates s [] last failing ↔ last = s ∧ b s = .failed failing := by
  constructor
  · rintro ⟨⟨⟩, fails⟩
    exact ⟨rfl, fails⟩
  · rintro ⟨rfl, fails⟩
    exact ⟨.nil last, fails⟩

/-- Where the behaviour succeeds, the row goes on behind the value. -/
theorem iterates_cons_iff : b.Iterates s (a :: as) last failing ↔
    ∃ t, b s = .done a t ∧ b.Iterates t as last failing := by
  constructor
  · rintro ⟨succeeds, fails⟩
    cases succeeds with
    | cons first others => exact ⟨_, first, others, fails⟩
  · rintro ⟨t, first, others, fails⟩
    exact ⟨.cons first others, fails⟩

/-- The row is the only one, for a run has one result. So whatever a repetition comes to is the row
that there is. -/
theorem Iterates.unique {values values' : List α} {last' failing' : State}
    (h : b.Iterates s values last failing) (h' : b.Iterates s values' last' failing') :
    values' = values ∧ last' = last ∧ failing' = failing := by
  induction values generalizing s values' with
  | nil =>
    obtain ⟨rfl, fails⟩ := iterates_nil_iff.1 h
    cases values' with
    | nil =>
      obtain ⟨rfl, fails'⟩ := iterates_nil_iff.1 h'
      rw [fails, Run.failed.injEq] at fails'
      exact ⟨rfl, rfl, fails'.symm⟩
    | cons a as =>
      -- Here the behaviour fails, so no row begins with a success.
      obtain ⟨t, first, -⟩ := iterates_cons_iff.1 h'
      rw [fails] at first
      cases first
  | cons a as ih =>
    obtain ⟨t, first, others⟩ := iterates_cons_iff.1 h
    cases values' with
    | nil =>
      obtain ⟨rfl, fails'⟩ := iterates_nil_iff.1 h'
      rw [first] at fails'
      cases fails'
    | cons a' as' =>
      obtain ⟨t', first', others'⟩ := iterates_cons_iff.1 h'
      rw [first, Run.done.injEq] at first'
      obtain ⟨rfl, rfl⟩ := first'
      obtain ⟨rfl, same⟩ := ih others others'
      exact ⟨rfl, same⟩

/-! ## Repetitions -/

/-- A repetition never fails: the failure that ends it is turned into the list of what was read
before. -/
theorem repeatedly_ne_failed {rounds : Nat} {v : State} : repeatedly b rounds s ≠ .failed v := by
  induction rounds generalizing s with
  | zero => exact fun failed => by cases failed
  | succ rounds ih =>
    rw [repeatedly]
    cases b s with
    | done a t => exact mt Run.map_eq_failed_iff.1 ih
    | failed t => exact mt Run.map_eq_failed_iff.1 State.moveTo_ne_failed
    | fault | unfinished => exact fun failed => by cases failed

/-- One that ends at once has gone back from its first attempt. -/
theorem repeatedly_eq_done_nil_iff {rounds : Nat} {v : State} :
    repeatedly b (rounds + 1) s = .done [] v ↔
      ∃ t, b s = .failed t ∧ IsPlace s.cursor t.text = true ∧
        v = { t with cursor := s.cursor } := by
  rw [repeatedly]
  cases b s with
  | done a t => simp [Run.map_eq_done_iff]
  | failed t => simp [Run.map_eq_done_iff, State.moveTo_eq_done_iff, eq_comm (a := v)]
  | fault | unfinished => simp

/-- Behind its first value, a repetition is one with a round less. -/
theorem repeatedly_eq_done_cons_iff {rounds : Nat} {v : State} :
    repeatedly b (rounds + 1) s = .done (a :: as) v ↔
      ∃ t, b s = .done a t ∧ repeatedly b rounds t = .done as v := by
  rw [repeatedly]
  cases b s with
  | done a' t => simp [Run.map_eq_done_iff, and_assoc, and_comm]
  | failed t => simp [Run.map_eq_done_iff]
  | fault | unfinished => simp

/-- **A repetition comes to the values of a row**, and to nothing else. It has gone back from the
attempt that failed and keeps the slot of that. -/
theorem repeatedly_eq_done_iff {rounds : Nat} {values : List α} {v : State} :
    repeatedly b rounds s = .done values v ↔
      values.length < rounds ∧ ∃ last failing, b.Iterates s values last failing ∧
        IsPlace last.cursor failing.text = true ∧ v = { failing with cursor := last.cursor } := by
  -- Each value of the row takes a round, and the attempt that fails takes one more.
  induction rounds generalizing s values with
  | zero => simp [repeatedly]
  | succ rounds ih =>
    cases values with
    | nil => simp [repeatedly_eq_done_nil_iff, iterates_nil_iff, and_assoc]
    | cons a as =>
      simp only [repeatedly_eq_done_cons_iff, iterates_cons_iff, ih, List.length_cons,
        Nat.succ_lt_succ_iff]
      constructor
      · rintro ⟨t, first, fewer, last, failing, others, back⟩
        exact ⟨fewer, last, failing, ⟨t, first, others⟩, back⟩
      · rintro ⟨fewer, last, failing, ⟨t, first, others⟩, back⟩
        exact ⟨t, first, fewer, last, failing, others, back⟩

end Behaviour

/-! ## At least one element -/

namespace Rule

variable {r : Rule Γ α} {limits : Limits} {ρ : Environment Γ} {s v : State} {values : List α}

/-- The test for an element comes behind the repetition, and taking back is done around both of
them. -/
theorem many1_run : r.many1.run limits ρ =
    Behaviour.atomically (Behaviour.andThen (r.many.run limits ρ) fun values =>
      if values.isEmpty then State.fail .noElements else Behaviour.pure values) := by
  refine congrArg Behaviour.atomically (congrArg (Behaviour.andThen _) (funext fun values => ?_))
  rw [apply_ite (fun r : Rule Γ (List α) => r.run limits ρ)]
  rfl

/-- A repetition that needs an element is one that need not have any, and comes to a value unless
there was none. -/
theorem many1_run_eq_done_iff :
    r.many1.run limits ρ s = .done values v ↔
      r.many.run limits ρ s = .done values v ∧ values ≠ [] := by
  rw [many1_run, Behaviour.atomically_eq_done_iff, Behaviour.andThen, Run.andThen_eq_done_iff]
  constructor
  · rintro ⟨as, t, repeated, tested⟩
    cases as with
    | nil => cases tested
    | cons a as =>
      cases tested
      exact ⟨repeated, List.cons_ne_nil a as⟩
  · rintro ⟨repeated, nonempty⟩
    refine ⟨values, v, repeated, ?_⟩
    rw [List.isEmpty_eq_false_iff.2 nonempty]
    rfl

/-- Of the failures on the way none is left: there is one about the missing element, at the
beginning. -/
theorem many1_run_eq_failed_iff :
    r.many1.run limits ρ s = .failed v ↔
      ∃ u, r.many.run limits ρ s = .done [] u ∧ IsPlace s.cursor u.text = true ∧
        v = { u with cursor := s.cursor, failure := .ofCause .noElements s.cursor } := by
  rw [many1_run, Behaviour.atomically_eq_failed_iff]
  simp only [Behaviour.andThen, Run.andThen_eq_failed_iff]
  constructor
  · rintro ⟨t, never | ⟨as, u, repeated, tested⟩, place, rfl⟩
    · exact absurd never Behaviour.repeatedly_ne_failed
    · -- So it was the test that failed, and it does so only without any element.
      cases as with
      | nil =>
        cases tested
        exact ⟨u, repeated, place, rfl⟩
      | cons a as => cases tested
  · rintro ⟨u, repeated, place, rfl⟩
    exact ⟨_, .inr ⟨[], u, repeated, rfl⟩, place, rfl⟩

end Rule

/-! ## Repetitions are maximal -/

namespace Parser

/-- **A repetition is maximal, and the one of at least one element agrees with it.** From one
state there is at most one row of successes that ends in a failure. A repetition comes to the
values of the row, with the cursor behind the last of them and with the failure of the attempt
after that in the slot. So does one of at least one element, if there is any; if there is none,
its failure is about that and lies where it began. Neither ends where there is no such row. -/
theorem many_run_maximal (p : Parser Γ α) (limits : Limits) (ρ : Environment Γ) (s : State) :
    let b := p.rule.run limits ρ
    let many := p.many.rule.run limits ρ s
    let many1 := p.many1.rule.run limits ρ s
    (∀ values last failing values' last' failing', b.Iterates s values last failing →
      b.Iterates s values' last' failing' →
        values' = values ∧ last' = last ∧ failing' = failing) ∧
    (∀ values last failing, b.Iterates s values last failing → values.length < limits.rounds →
      IsPlace last.cursor failing.text = true →
        many = .done values { failing with cursor := last.cursor } ∧
        (values ≠ [] → many1 = many) ∧
        (values = [] → many1 = .failed
          { failing with cursor := s.cursor, failure := .ofCause .noElements s.cursor })) ∧
    (many.Ended ∨ many1.Ended → ∃ values last failing, b.Iterates s values last failing ∧
      values.length < limits.rounds ∧ IsPlace last.cursor failing.text = true) := by
  intro b many many1
  refine ⟨fun _ _ _ _ _ _ row row' => row.unique row', ?_, ?_⟩
  · intro values last failing row fewer place
    have repeated : many = .done values { failing with cursor := last.cursor } :=
      Behaviour.repeatedly_eq_done_iff.2 ⟨fewer, last, failing, row, place, rfl⟩
    refine ⟨repeated, fun nonempty => ?_, ?_⟩
    · rw [repeated]
      exact Rule.many1_run_eq_done_iff.2 ⟨repeated, nonempty⟩
    · rintro rfl
      obtain ⟨rfl, -⟩ := Behaviour.iterates_nil_iff.1 row
      exact Rule.many1_run_eq_failed_iff.2 ⟨_, repeated, place, rfl⟩
  · -- Each way to end says that there was a repetition with a value.
    have of_done {values : List α} {v : State} (repeated : many = .done values v) :
        ∃ values last failing, b.Iterates s values last failing ∧
          values.length < limits.rounds ∧ IsPlace last.cursor failing.text = true := by
      obtain ⟨fewer, last, failing, row, place, -⟩ := Behaviour.repeatedly_eq_done_iff.1 repeated
      exact ⟨values, last, failing, row, fewer, place⟩
    rintro (ended | ended)
    · obtain ⟨values, v, repeated⟩ | ⟨v, failed⟩ := Run.ended_iff.1 ended
      · exact of_done repeated
      · exact absurd failed Behaviour.repeatedly_ne_failed
    · obtain ⟨values, v, done⟩ | ⟨v, failed⟩ := Run.ended_iff.1 ended
      · exact of_done (Rule.many1_run_eq_done_iff.1 done).1
      · obtain ⟨u, repeated, -⟩ := Rule.many1_run_eq_failed_iff.1 failed
        exact of_done repeated

/-- The third attempt gets past a character of two bytes before it fails. -/
theorem many_run_maximal_halfway :
    let p : Parser [] (Char × Char) := (char 'ż').pair (char 'a')
    let s : State := State.start "żażażb"
    let last : State := { s with cursor := 6 }
    let failing : State :=
      { s with cursor := 8, failure := ⟨.literalMismatch, "Expected 'a', but got 'b'.", 8⟩ }
    (p.rule.run ⟨1, 3⟩ .undefined).Iterates s [('ż', 'a'), ('ż', 'a')] last failing ∧
    p.many.rule.run ⟨1, 3⟩ .undefined s =
      .done [('ż', 'a'), ('ż', 'a')] { failing with cursor := 6 } ∧
    p.many1.rule.run ⟨1, 3⟩ .undefined s =
      .done [('ż', 'a'), ('ż', 'a')] { failing with cursor := 6 } ∧
    p.many1.rule.run ⟨1, 3⟩ .undefined last =
      .failed { last with failure := ⟨.emptyRepetition, Cause.noElements.message, 6⟩ } := by
  intro p s last failing
  have first : p.rule.run ⟨1, 3⟩ .undefined s = .done ('ż', 'a') { s with cursor := 3 } := by
    decide +kernel
  have second : p.rule.run ⟨1, 3⟩ .undefined { s with cursor := 3 } = .done ('ż', 'a') last := by
    decide +kernel
  have fails : p.rule.run ⟨1, 3⟩ .undefined last = .failed failing := by decide +kernel
  have row : (p.rule.run ⟨1, 3⟩ .undefined).Iterates s [('ż', 'a'), ('ż', 'a')] last failing :=
    ⟨.cons first (.cons second (.nil last)), fails⟩
  have empty : (p.rule.run ⟨1, 3⟩ .undefined).Iterates last [] last failing := ⟨.nil last, fails⟩
  obtain ⟨repeated, same, -⟩ :=
    (many_run_maximal p ⟨1, 3⟩ .undefined s).2.1 _ _ _ row (by decide) (by decide)
  obtain ⟨-, -, fails⟩ :=
    (many_run_maximal p ⟨1, 3⟩ .undefined last).2.1 _ _ _ empty (by decide) (by decide)
  exact ⟨row, repeated, (same (List.cons_ne_nil _ _)).trans repeated, fails rfl⟩

end Parser

end Descent
