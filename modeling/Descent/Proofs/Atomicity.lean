/-
Parsers that are atomic by themselves.

To run a rule atomically is to take a failure back and to report it where the rule began. It
makes no difference where the rule does so of its own accord: where each run of it that
fails is back where it began, in a place of the text, and reports the failure there
(`Run.AllOrNothing`).

There are three ways to come by that. An elementary operation that fails has not moved. A
repetition that needs an element, a pair of brackets and a chain that needs a term are run
atomically by definition. A choice with labels has gone back after each alternative, and
fails afresh, and so does the fold of a chain that turned out to be empty. Nothing is asked
of the parts in any of them: these may fail anywhere.
-/
import Descent.Json.Grammar
import Descent.Proofs.ChainRun

set_option autoImplicit false

namespace Descent

open Text

variable {Γ : Scope} {α β τ σ : Type}

/-! ## Runs -/

/-- If the run, begun in `s`, failed, it is back where it began and reports the failure there. -/
inductive Run.AllOrNothing (s : State) : Run α → Prop
  | done (a : α) (t : State) : AllOrNothing s (.done a t)
  | failed {t : State} (cursor : t.cursor = s.cursor) (position : t.failure.position = s.cursor)
      (place : IsPlace s.cursor t.text = true) : AllOrNothing s (.failed t)
  | fault : AllOrNothing s .fault
  | unfinished : AllOrNothing s .unfinished

/-- A sequence may be read from the left or from the right. -/
theorem Behaviour.andThen_assoc (b : Behaviour α) (f : α → Behaviour β) (g : β → Behaviour σ) :
    Behaviour.andThen (Behaviour.andThen b f) g =
      Behaviour.andThen b fun a => Behaviour.andThen (f a) g := by
  funext s
  show ((b s).andThen f).andThen g = (b s).andThen fun a => Behaviour.andThen (f a) g
  cases b s <;> rfl

/-- A value that is given at once goes to what follows, with no state between. Sequences that return
a value in their midst are cut short by this. -/
theorem Behaviour.pure_andThen (a : α) (f : α → Behaviour β) :
    Behaviour.andThen (Behaviour.pure a) f = f a :=
  rfl

namespace Run.AllOrNothing

variable {s t : State} {q : Run α}

/-- A failure that is taken back already is taken back once more. -/
theorem atomically_eq {b : Behaviour α} (h : (b s).AllOrNothing s) :
    Behaviour.atomically b s = b s := by
  rw [Behaviour.atomically]
  generalize b s = q at h ⊢
  cases h with
  | @failed t cursor position place =>
    have moved : State.moveTo s.cursor t = .done () t := by
      rw [State.moveTo, if_pos place, ← cursor]
    have relocated : t.relocate s.cursor = t := by
      rw [State.relocate, ← position]
    rw [Run.orElse, moved, Run.andThen, relocated]
  | done | fault | unfinished => rfl

/-- Only the place that a run began in counts of the state. -/
theorem from_cursor (h : q.AllOrNothing t) (same : t.cursor = s.cursor) : q.AllOrNothing s := by
  cases h with
  | done a t => exact .done a t
  | failed cursor position place =>
    rw [same] at cursor position place
    exact .failed cursor position place
  | fault => exact .fault
  | unfinished => exact .unfinished

/-- What follows a success has to go back as far as the first behaviour began, so it is asked about
with the state from before. -/
theorem andThen {next : α → Behaviour β} (h : q.AllOrNothing s)
    (hnext : ∀ a t, q = .done a t → (next a t).AllOrNothing s) :
    (q.andThen next).AllOrNothing s := by
  cases h with
  | done a t => exact hnext a t rfl
  | failed cursor position place => exact .failed cursor position place
  | fault => exact .fault
  | unfinished => exact .unfinished

/-- A result is mapped after the run, so a failure is the same failure. -/
theorem map (h : q.AllOrNothing s) (f : α → β) : (q.map f).AllOrNothing s :=
  h.andThen fun a t _ => .done (f a) t

end Run.AllOrNothing

/-! ## Failing at once -/

namespace State

variable {s t : State}

/-- To fail is to record the cursor and to stay. -/
theorem allOrNothing_fail (place : IsPlace s.cursor s.text = true) (cause : Cause) :
    (State.fail cause s : Run α).AllOrNothing s :=
  .failed rfl rfl place

/-- An operation that looks ahead faults unless it stands at a place. So where it has anything to
decide, the place is given. -/
theorem allOrNothing_withAhead {f : List Char → Run α}
    (h : IsPlace s.cursor s.text = true → ∀ cs, (f cs).AllOrNothing s) :
    (s.withAhead f).AllOrNothing s := by
  rw [State.withAhead]
  cases ahead : s.ahead? with
  | some cs =>
    have place : IsPlace s.cursor s.text = true := Option.isSome_iff_exists.2 ⟨cs, ahead⟩
    exact h place cs
  | none => exact .fault

/-- Looking ahead changes nothing, so what is done behind a look begins where the look was taken. -/
theorem eq_of_peek {c : Char} (h : State.peek s = .done c t) : t = s := by
  rw [State.peek, State.withAhead] at h
  split at h
  · split at h
    · cases h
    · cases h
      rfl
  · cases h

/-- Looking for a character where there is none fails on the spot. -/
theorem allOrNothing_peek (s : State) : (State.peek s).AllOrNothing s := by
  refine allOrNothing_withAhead fun place cs => ?_
  cases cs with
  | nil => exact allOrNothing_fail place .endOfText
  | cons c cs => exact .done c s

/-- A move never fails. It reaches its offset, or faults where that is no place of the text. -/
theorem allOrNothing_moveTo (s : State) (n : Nat) : (State.moveTo n s).AllOrNothing s := by
  rw [State.moveTo]
  split
  · exact .done () _
  · exact .fault

end State

/-- **An operation that fails has not moved**, and reports that where it stands. -/
theorem Operation.allOrNothing (o : Operation α) (s : State) : (o.run s).AllOrNothing s := by
  cases o with
  | peek => exact s.allOrNothing_peek
  | char => exact s.allOrNothing_peek.andThen fun c t _ => .done c _
  | literal expected =>
    refine State.allOrNothing_withAhead fun place cs => ?_
    dsimp only
    split
    · exact .done expected _
    · split
      · exact State.allOrNothing_fail place _
      · exact State.allOrNothing_fail place _
  | matchPattern p =>
    refine State.allOrNothing_withAhead fun place cs => ?_
    cases p.find? cs with
    | some found => exact .done _ _
    | none => exact State.allOrNothing_fail place _
  | ending =>
    refine State.allOrNothing_withAhead fun place cs => ?_
    cases cs with
    | nil => exact .done () s
    | cons c cs => exact State.allOrNothing_fail place _
  | skipBlanks | rest => exact State.allOrNothing_withAhead fun _ _ => .done _ _
  | wholeText | position | isAtEnd | bookmark | lastFailure => exact .done _ _
  | moveTo offset => exact s.allOrNothing_moveTo offset
  | returnTo name => exact s.allOrNothing_moveTo (s.bookmarked name)
  | locate offset =>
    show (State.locate offset s).AllOrNothing s
    rw [State.locate]
    split
    · exact .done _ s
    · exact .fault

/-- An atomic run that fails has moved back, for which there must be a place, and reports the
failure there. Nothing is asked of what is run. -/
theorem Behaviour.allOrNothing_atomically (b : Behaviour α) (s : State) :
    (Behaviour.atomically b s).AllOrNothing s := by
  rw [Behaviour.atomically]
  cases b s with
  | done a t => exact .done a t
  | failed t =>
    rw [Run.orElse, State.moveTo]
    split
    · next place => exact .failed rfl rfl place
    · exact .fault
  | fault => exact .fault
  | unfinished => exact .unfinished

/-! ## Rules -/

/-- Each run of the rule that begins in a place is all or nothing. -/
def Rule.AllOrNothing (limits : Limits) (ρ : Environment Γ) (r : Rule Γ α) : Prop :=
  ∀ s : State, IsPlace s.cursor s.text = true → (r.run limits ρ s).AllOrNothing s

namespace Rule

variable {limits : Limits} {ρ : Environment Γ}

namespace AllOrNothing

variable {r r' : Rule Γ α}

/-- The lemma on operations, for the rule that consists of one. -/
theorem operation (o : Operation α) : (Rule.operation o : Rule Γ α).AllOrNothing limits ρ :=
  fun s _ => o.allOrNothing s

/-- Whatever rule is run atomically, nothing is asked of it. Three kinds of parsers come by this
lemma alone. -/
theorem atomically (r : Rule Γ α) : (Rule.atomically r).AllOrNothing limits ρ :=
  fun s _ => Behaviour.allOrNothing_atomically (r.run limits ρ) s

/-- Tokens are made of a pattern and a function, so most of them come by this. -/
theorem map (h : r.AllOrNothing limits ρ) (f : α → β) :
    Rule.AllOrNothing limits ρ (f <$> r) :=
  fun s place => (h s place).map f

/-- The character ahead, consumed if it passes, is still ahead where it does not. -/
theorem charIf (accepts : Char → Bool) (cause : Char → Cause) :
    Rule.AllOrNothing limits ρ
      (Rule.peek >>= fun c => if accepts c then Rule.char else Rule.fail (cause c)) := by
  intro s place
  refine s.allOrNothing_peek.andThen fun c t peeked => ?_
  rw [State.eq_of_peek peeked]
  dsimp only
  split
  · exact (Operation.char).allOrNothing s
  · exact State.allOrNothing_fail place _

/-- The first alternative has gone back before the others are tried. -/
theorem orElse (r : Rule Γ α) (h : r'.AllOrNothing limits ρ) :
    (r.orElse r').AllOrNothing limits ρ := by
  intro s place
  show Run.AllOrNothing s
    ((((r.run limits ρ s).orElse _).map Option.some).orElse _ |>.andThen _)
  cases r.run limits ρ s with
  | done a t => exact .done a t
  | failed t =>
    rw [Run.orElse, State.moveTo]
    split
    · next back => exact (h { t with cursor := s.cursor } back).from_cursor rfl
    · exact .fault
  | fault => exact .fault
  | unfinished => exact .unfinished

/-- By induction on the alternatives, ending in the failure that names all labels. Their own
failures are not reported. -/
theorem oneOfLabeled (alternatives : List (String × Rule Γ α)) :
    (Rule.oneOfLabeled alternatives).AllOrNothing limits ρ := by
  rw [Rule.oneOfLabeled]
  generalize alternatives.map Prod.fst = labels
  induction alternatives with
  | nil => exact fun s place => State.allOrNothing_fail place _
  | cons a alternatives ih => exact .orElse a.2 ih

/-- A definition is all or nothing where its body is, whatever its stand-in does. -/
theorem recursive {body : Rule (α :: Γ) α}
    (h : ∀ self, body.AllOrNothing limits (ρ.extend (some self))) :
    (Rule.recursive body).AllOrNothing limits ρ := by
  intro s place
  show (Behaviour.fixed _ limits.depth s).AllOrNothing s
  cases limits.depth with
  | zero => exact .unfinished
  | succ depth => exact h _ s place

/-- The fold of a chain fails as the chain does, which has gone back. -/
theorem fold {term : Rule Γ τ} {separator : Rule Γ σ} {f : Chain τ σ → Option τ}
    (empty : f .empty = none) (nonempty : ∀ head tail, f (.links head tail) ≠ none) :
    (Rule.fold term separator f).AllOrNothing limits ρ := by
  intro s place
  cases folded : (Rule.fold term separator f).run limits ρ s with
  | done a t => exact .done a t
  | failed t =>
    have failed := (fold_run_eq_failed_iff empty nonempty).1 folded
    obtain ⟨u, -, back, rfl⟩ := chain1_run_eq_failed_iff.1 failed
    exact .failed rfl rfl back
  | fault => exact .fault
  | unfinished => exact .unfinished

end AllOrNothing

end Rule

/-! ## Parsers -/

namespace Parser

/-- The parsers of this library that promise to be atomic, with any parts at all. -/
inductive Indivisible : {Γ : Scope} → {α : Type} → Parser Γ α → Prop
  | many1 {Γ : Scope} {α : Type} (p : Parser Γ α) : Indivisible p.many1
  | chain1 {Γ : Scope} {τ σ : Type} (term : Parser Γ τ) (separator : Parser Γ σ) :
      Indivisible (term.chain1 separator)
  | chainLeft {Γ : Scope} {τ σ : Type} (term : Parser Γ τ) (separator : Parser Γ σ)
      (combine : τ → τ → σ → τ) : Indivisible (term.chainLeft separator combine)
  | chainRight {Γ : Scope} {τ σ : Type} (term : Parser Γ τ) (separator : Parser Γ σ)
      (combine : τ → τ → σ → τ) : Indivisible (term.chainRight separator combine)
  | bracket {Γ : Scope} {α β σ : Type} (before : Parser Γ β) (after : Parser Γ σ)
      (inside : Parser Γ α) : Indivisible (.bracket before after inside)
  | oneOfLabeled {Γ : Scope} {α : Type} (alternatives : List (String × Parser Γ α)) :
      Indivisible (.oneOfLabeled alternatives)
  | literal {Γ : Scope} (expected : String) : Indivisible (literal expected : Parser Γ String)
  | pattern {Γ : Scope} (p : Pattern) : Indivisible (pattern p : Parser Γ String)
  | char {Γ : Scope} (expected : Char) : Indivisible (char expected : Parser Γ Char)
  | charIn {Γ : Scope} (expected : List Char) : Indivisible (charIn expected : Parser Γ Char)
  | ending {Γ : Scope} : Indivisible (ending : Parser Γ Unit)
  | peek {Γ : Scope} : Indivisible (peek : Parser Γ Char)
  | boolean {Γ : Scope} : Indivisible (Token.boolean : Parser Γ Bool)
  | doubleQuoted {Γ : Scope} : Indivisible (Token.doubleQuoted : Parser Γ String)
  | singleQuoted {Γ : Scope} : Indivisible (Token.singleQuoted : Parser Γ String)
  | json {Γ : Scope} : Indivisible (Json.value : Parser Γ Json.Value)

/-- The three ways from the top of this file, each for the parsers that come by it. -/
theorem Indivisible.allOrNothing {limits : Limits} {ρ : Environment Γ} {p : Parser Γ α}
    (h : p.Indivisible) : p.rule.AllOrNothing limits ρ := by
  induction h with
  | many1 | chain1 | bracket => exact .atomically _
  | chainLeft _ _ combine =>
    exact Rule.AllOrNothing.fold (f := Chain.foldLeft combine) rfl fun head tail h => by cases h
  | chainRight _ _ combine =>
    exact Rule.AllOrNothing.fold (f := Chain.foldRight combine) rfl fun head tail h => by cases h
  | oneOfLabeled => exact .oneOfLabeled _
  | literal | pattern | ending | peek => exact .operation _
  | char | charIn => exact .charIf _ _
  | boolean | doubleQuoted | singleQuoted => exact (Rule.AllOrNothing.operation _).map _
  | json => exact .recursive fun self => .oneOfLabeled _

/-- **The parsers that promise to be atomic are so.** From any place, to run them atomically is to
run them, and a failure of theirs leaves the cursor where it was and is reported there. Brackets
are the sequence of what they are made of, run atomically. -/
theorem run_atomically_eq (limits : Limits) (ρ : Environment Γ) {s : State}
    (place : IsPlace s.cursor s.text = true) :
    (∀ (α : Type) (p : Parser Γ α), p.Indivisible →
      p.atomically.rule.run limits ρ s = p.rule.run limits ρ s ∧
      ∀ t, p.rule.run limits ρ s = .failed t →
        t.cursor = s.cursor ∧ t.failure.position = s.cursor) ∧
    ∀ (α β σ : Type) (before : Parser Γ β) (after : Parser Γ σ) (inside : Parser Γ α),
      (Parser.bracket before after inside).rule.run limits ρ s =
        (((before.pair inside).pair after).map fun x => x.1.2).atomically.rule.run limits ρ s := by
  refine ⟨fun α p h => ?_, fun α β σ before after inside => ?_⟩
  · have settled : (p.rule.run limits ρ s).AllOrNothing s := h.allOrNothing s place
    refine ⟨settled.atomically_eq, fun t failed => ?_⟩
    rw [failed] at settled
    cases settled with
    | failed cursor position => exact ⟨cursor, position⟩
  · -- What is run atomically on the two sides is one sequence, read in two ways.
    refine congrFun (congrArg Behaviour.atomically ?_) s
    show Behaviour.andThen (before.rule.run limits ρ) (fun _ =>
        Behaviour.andThen (inside.rule.run limits ρ) fun v =>
          Behaviour.andThen (after.rule.run limits ρ) fun _ => Behaviour.pure v) =
      Behaviour.andThen (Behaviour.andThen (Behaviour.andThen (before.rule.run limits ρ) fun u =>
          Behaviour.andThen (inside.rule.run limits ρ) fun v => Behaviour.pure (u, v)) fun x =>
        Behaviour.andThen (after.rule.run limits ρ) fun w => Behaviour.pure (x, w)) fun x =>
          Behaviour.pure x.1.2
    simp only [Behaviour.andThen_assoc, Behaviour.pure_andThen]

/-- An operand that is two letters long, of which the second is missing, behind a character of two
bytes: the term alone stops behind the first letter, the chain of terms where it began. -/
theorem run_atomically_eq_chain :
    let term : Parser [] Char := ((Parser.char 'a').pair (.char 'c')).map Prod.fst
    let sum : Parser [] Char := term.chainLeft (.char '+') fun lhs _ _ => lhs
    let s : State := { State.start "żab" with cursor := 2 }
    IsPlace s.cursor s.text = true ∧
    (∃ t, term.rule.run ⟨1, 1⟩ .undefined s = .failed t ∧ t.cursor = 3) ∧
    ∃ t, sum.rule.run ⟨1, 1⟩ .undefined s = .failed t ∧
      sum.atomically.rule.run ⟨1, 1⟩ .undefined s = .failed t ∧
      t.cursor = 2 ∧ t.failure.position = 2 := by
  intro term sum s
  have place : IsPlace s.cursor s.text = true := by decide
  obtain ⟨same, back⟩ := (run_atomically_eq ⟨1, 1⟩ .undefined place).1 _ sum (.chainLeft _ _ _)
  refine ⟨place, ⟨_, rfl, rfl⟩, _, rfl, same, back _ rfl⟩

end Parser

end Descent
