/-
Going forward.

A run goes *through* a text when it comes to the place behind it (`State.Through`). A rule
*advances* when no run of it comes to a fault or ends before the place where it began, and
what it went through on the way to a value is written as `P` says (`Rule.Advances`). Where
such a run fails, it has not gone past the place that the failure is reported at. It has
stopped just there when the rule is *exact*.

Only a choice without labels is not exact: it goes back to where it began and leaves the
report of its last alternative where that failed. Every other rule that goes back records a
failure of its own, reports the old one where it began, or drops it. So what a part that is
not exact leaves behind is seen in choices alone.

Runs that are given up say nothing: a rule may advance and never end.
-/
import Descent.Proofs.ChainReading
import Descent.Proofs.Pattern.Leading

set_option autoImplicit false

namespace Descent

open Text

variable {Γ : Scope} {α β τ σ : Type}

/-! ## Folds of what is written -/

namespace Chain

variable {T : List Char → τ → Prop} {S : List Char → σ → Prop} {combine : τ → τ → σ → τ}

/-- The left fold is written like the chain, where what is combined is written side by side. -/
theorem written_foldLinksLeft
    (hcombine : ∀ u v w l s r, T u l → S v s → T w r → T (u ++ (v ++ w)) (combine l r s))
    {u cs : List Char} {head : τ} {tail : List (σ × τ)} (hhead : T u head)
    (htail : Row (Link T S) cs tail) : T (u ++ cs) (foldLinksLeft combine head tail) := by
  induction htail generalizing u head with
  | nil => rwa [List.append_nil]
  | cons hlink _ ih =>
    obtain ⟨hs, ht⟩ := hlink
    rw [← List.append_assoc]
    exact ih (hcombine _ _ _ _ _ _ hhead hs ht)

/-- So is the right fold. The links behind the first term are folded before it comes in, and what
stands between is put together the other way round. -/
theorem written_foldLinksRight
    (hcombine : ∀ u v w l s r, T u l → S v s → T w r → T (u ++ (v ++ w)) (combine l r s))
    {u cs : List Char} {head : τ} {tail : List (σ × τ)} (hhead : T u head)
    (htail : Row (Link T S) cs tail) :
    T (u ++ cs) (foldLinksRight combine head tail) := by
  induction htail generalizing u head with
  | nil => rwa [List.append_nil]
  | cons hlink _ ih =>
    obtain ⟨hs, ht⟩ := hlink
    rw [List.append_assoc]
    exact hcombine _ _ _ _ _ _ hhead hs (ih ht)

end Chain

/-! ## Places -/

/-- A place lies within the text: what stands in front of it is a part of the whole, so it is not
longer. -/
theorem Text.le_of_isPlace {n : Nat} {cs : List Char} (h : IsPlace n cs = true) :
    n ≤ byteLength cs := by
  obtain ⟨front, back, rfl, rfl⟩ := isPlace_iff.1 h
  rw [byteLength_append]
  exact Nat.le_add_right _ _

/-- A place has a line and a column, those behind the characters in front of it. So no report of a
failure at a place comes to a fault. -/
theorem Text.Location.exists_of_isPlace {n : Nat} {cs : List Char} (h : IsPlace n cs = true) :
    ∃ l, ofOffset? cs n = some l := by
  obtain ⟨front, back, rfl, rfl⟩ := isPlace_iff.1 h
  refine ⟨after front, ?_⟩
  rw [ofOffset?, byteLength_append, Nat.min_eq_left (Nat.le_add_right _ _), takeBytes_append]
  rfl

/-! ## Ways through a text -/

/-- From `s`, the place behind `u` is that of `t`. -/
inductive State.Through (s : State) : List Char → State → Prop
  | mk {u rest : List Char} {t : State} (text : t.text = s.text)
      (here : s.ahead? = some (u ++ rest)) (there : t.ahead? = some rest) : Through s u t

/-- The last failure is reported at the cursor or behind it, and if `E` at the cursor. -/
def State.Reports (E : Prop) (t : State) : Prop :=
  ∃ v, t.Through v { t with cursor := t.failure.position } ∧ (E → v = [])

namespace State.Through

variable {s t w : State} {u v cs : List Char}

/-- A run that consumes nothing goes through the empty text. This is how what only looks ahead, and
what fails at once, comes into the account. -/
theorem stay (h : s.ahead? = some cs) : s.Through [] s :=
  .mk rfl h h

/-- The cursor past a front part of what lies ahead stands behind that part, so this is the way of
everything that consumes what it found. -/
theorem advance (h : s.ahead? = some (u ++ cs)) : s.Through u (s.advance u) :=
  .mk rfl h (ahead?_advance h)

/-- Two ways one after the other make a way through both texts. What a sequence consumes is put
together from its parts by this and nothing else. -/
theorem trans (h : s.Through u t) (h' : t.Through v w) : s.Through (u ++ v) w := by
  obtain ⟨text, here, there⟩ := h
  obtain ⟨text', here', there'⟩ := h'
  rw [there, Option.some.injEq] at here'
  rw [here', ← List.append_assoc] at here
  exact .mk (text'.trans text) here there'

/-- No way leaves the text that it is in, so a way can be told from the two cursors alone. -/
theorem text_eq (h : s.Through u t) : t.text = s.text := by
  obtain ⟨text, -, -⟩ := h
  exact text

/-- The end of a way is a place, and a rule that goes on from there can be run. -/
theorem arrives (h : s.Through u t) : ∃ rest, t.ahead? = some rest := by
  obtain ⟨-, -, there⟩ := h
  exact ⟨_, there⟩

/-- The cursor has moved by as many bytes as were gone through: what lies behind it is what lay
behind it before, and that text. -/
theorem cursor_eq (h : s.Through u t) : t.cursor = s.cursor + byteLength u := by
  obtain ⟨text, here, there⟩ := h
  obtain ⟨before, hs, hbefore⟩ := append_of_drop here
  obtain ⟨before', ht, hbefore'⟩ := append_of_drop there
  rw [text, hs, ← List.append_assoc] at ht
  rw [← hbefore', ← List.append_cancel_right ht, byteLength_append, hbefore]

/-- The cursor stands at a place of the text that the run began with, so nothing is cut inside a
character when the run goes on or is reported. -/
theorem isPlace (h : s.Through u t) : IsPlace t.cursor s.text = true := by
  rw [IsPlace, ← h.text_eq]
  exact Option.isSome_iff_exists.2 h.arrives

/-- Going back to where the way began is no fault, as that was a place of the same text. -/
theorem moveTo (h : s.Through u t) :
    State.moveTo s.cursor t = .done () { t with cursor := s.cursor } := by
  obtain ⟨text, here, -⟩ := h
  exact moveTo_of_ahead? here text

/-- Back at the beginning, whatever becomes of the slot: what is taken back is the cursor and
nothing else. -/
theorem back (h : s.Through u t) (f : Failure) :
    s.Through [] { t with cursor := s.cursor, failure := f } := by
  obtain ⟨text, here, -⟩ := h
  exact .mk text here ((congrArg (dropBytes s.cursor) text).trans here)

/-- A failure that is reported where the cursor stands is exact, since nothing lies between the two.
-/
theorem reports {E : Prop} (h : s.Through u t) (position : t.failure.position = t.cursor) :
    t.Reports E := by
  obtain ⟨_, there⟩ := h.arrives
  refine ⟨[], ?_, fun _ => rfl⟩
  rw [position]
  exact .stay there

/-- Seen from further back, the report of a failure is further ahead, by the text that was gone
through and is taken back. -/
theorem reports_back {E F : Prop} (h : s.Through u t) (report : t.Reports F)
    (hexact : ¬ E) : State.Reports E { t with cursor := s.cursor } := by
  obtain ⟨v, hv, -⟩ := report
  refine ⟨u ++ v, ?_, fun h => absurd h hexact⟩
  obtain ⟨text, here, there⟩ := h.trans hv
  exact .mk rfl ((congrArg (dropBytes s.cursor) text).trans here) there

end State.Through

/-! ## Runs -/

/-- The run, begun in `s`, went forward, to a value as `P` says or to a failure. -/
inductive Run.Advances (s : State) (P : List Char → α → Prop) (E : Prop) : Run α → Prop
  | done {a : α} {t : State} {u : List Char} (way : s.Through u t) (h : P u a) :
      Advances s P E (.done a t)
  | failed {t : State} {u : List Char} (way : s.Through u t) (report : t.Reports E) :
      Advances s P E (.failed t)
  | unfinished : Advances s P E .unfinished

/-- Every run that begins at a place goes forward. -/
def Behaviour.Advances (b : Behaviour α) (P : List Char → α → Prop) (E : Prop) : Prop :=
  ∀ (s : State) (cs : List Char), s.ahead? = some cs → (b s).Advances s P E

/-- What holds of the innermost stand-in and of all others holds of all. Inductions over rules come
to this at every definition that they enter. -/
theorem Environment.forall_extend {ρ : Environment Γ} {o : Option (Behaviour α)}
    {C : (β : Type) → StandIn (α :: Γ) β → Behaviour β → Prop} (here : ∀ b ∈ o, C α .here b)
    (outer : ∀ (β : Type) (v : StandIn Γ β), ∀ b ∈ ρ β v, C β (.outer v) b) (β : Type)
    (v : StandIn (α :: Γ) β) : ∀ b ∈ ρ.extend o β v, C β v b := by
  cases v with
  | here => exact here
  | outer v => exact outer β v

/-- The same of what a rule does. -/
def Rule.Advances (limits : Limits) (ρ : Environment Γ) (r : Rule Γ α)
    (P : List Char → α → Prop) (E : Prop) : Prop :=
  (r.run limits ρ).Advances P E

namespace Run.Advances

variable {s t : State} {u : List Char} {P Q : List Char → α → Prop} {E F : Prop}
  {q : Run α}

/-- What is consumed on the way to a value may be told less exactly. Failures are not touched, as
nothing is said of what they consumed. -/
theorem mono (h : q.Advances s P E) (hP : ∀ u a, P u a → Q u a) : q.Advances s Q E := by
  cases h with
  | done way h => exact .done way (hP _ _ h)
  | failed way report => exact .failed way report
  | unfinished => exact .unfinished

/-- What goes on from a place further ahead began further back. -/
theorem behind (way : s.Through u t) (h : q.Advances t (fun v => P (u ++ v)) E) :
    q.Advances s P E := by
  cases h with
  | done way' h => exact .done (way.trans way') h
  | failed way' report => exact .failed (way.trans way') report
  | unfinished => exact .unfinished

/-- A run goes on from where the first part left it. The value of the whole is written as the second
part says of both texts, and a failure of the first part is the failure of the whole. -/
theorem andThen {P : List Char → β → Prop} {q : Run β} {next : β → Behaviour α}
    (h : q.Advances s P E)
    (hnext : ∀ u b, P u b → (next b).Advances (fun v => Q (u ++ v)) E) :
    (q.andThen next).Advances s Q E := by
  cases h with
  | done way h =>
    obtain ⟨_, there⟩ := way.arrives
    exact behind way (hnext _ _ h _ _ there)
  | failed way report => exact .failed way report
  | unfinished => exact .unfinished

/-- A value under a function was read where the value was, and on the way that it took. -/
theorem map {P : List Char → β → Prop} {q : Run β} (h : q.Advances s P E) (f : β → α)
    (hf : ∀ u b, P u b → Q u (f b)) : (q.map f).Advances s Q E := by
  cases h with
  | done way h => exact .done way (hf _ _ h)
  | failed way report => exact .failed way report
  | unfinished => exact .unfinished

end Run.Advances

/-- A failure that is recorded on the spot consumes nothing and is reported where the cursor stands,
so it is exact. -/
theorem Behaviour.Advances.fail {P : List Char → α → Prop} {E : Prop} (cause : Cause) :
    (State.fail cause : Behaviour α).Advances P E := by
  intro s cs hs
  have way : s.Through [] (s.record cause) := .mk rfl hs hs
  exact .failed way (way.reports rfl)

/-- A definition that refers to itself goes forward if its body does so whenever the references do.
The induction is on the depth of the references; at depth zero there is no run at all. -/
theorem Behaviour.Advances.fixed {P : List Char → α → Prop} {E : Prop}
    {define : Behaviour α → Behaviour α} (h : ∀ b, b.Advances P E → (define b).Advances P E)
    (depth : Nat) : (Behaviour.fixed define depth).Advances P E := by
  induction depth with
  | zero => exact fun _ _ _ => .unfinished
  | succ depth ih => exact h _ ih

namespace Rule.Advances

variable {limits : Limits} {ρ : Environment Γ} {P Q : List Char → α → Prop}
  {E F : Prop} {r s : Rule Γ α}

/-- What a rule reads may be told less exactly as well. A token is put to use like this where only
that it goes forward counts. -/
theorem mono (h : r.Advances limits ρ P E) (hP : ∀ u a, P u a → Q u a) :
    r.Advances limits ρ Q E :=
  fun s cs hs => (h s cs hs).mono hP

/-! ## Elementary rules -/

/-- A value that is not read from anywhere takes the way that consumes nothing. -/
theorem pure {a : α} (h : P [] a) : (Rule.pure a : Rule Γ α).Advances limits ρ P E :=
  fun _ _ hs => .done (.stay hs) h

/-- A rule that fails does so where it stands, so the failure is reported at the end of a way of no
length. -/
theorem fail (cause : Cause) : (Rule.fail cause : Rule Γ α).Advances limits ρ P E :=
  Behaviour.Advances.fail cause

section Operations

variable {P : List Char → Char → Prop} {Q : List Char → String → Prop}

/-- Looking at the next character consumes nothing, whether there is one or not; without one the
failure is reported at the end. -/
theorem peek (h : ∀ c, P [] c) : (Rule.peek : Rule Γ Char).Advances limits ρ P E := by
  intro s cs hs
  show Run.Advances s P E (State.peek s)
  rw [State.peek, State.withAhead, hs]
  cases cs with
  | nil => exact Behaviour.Advances.fail .endOfText s [] hs
  | cons c cs => exact .done (.stay hs) (h c)

/-- The next character is what is gone through, and without one the failure is reported at the end.
-/
theorem char (h : ∀ c, P [c] c) : (Rule.char : Rule Γ Char).Advances limits ρ P E := by
  intro s cs hs
  show Run.Advances s P E ((State.peek s).andThen _)
  rw [State.peek, State.withAhead, hs]
  cases cs with
  | nil => exact Behaviour.Advances.fail .endOfText s [] hs
  | cons c cs => exact .done (.advance (u := [c]) hs) (h c)

/-- What is consumed is the expected text itself, as it is a front part of what lies ahead. Both
failures, at the end and before another text, are reported on the spot. -/
theorem literal {expected : String} (h : Q expected.toList expected) :
    (Rule.literal expected : Rule Γ String).Advances limits ρ Q E := by
  intro s cs hs
  show Run.Advances s Q E (State.literal expected s)
  rw [State.literal, State.withAhead, hs]
  dsimp only
  split
  · next found =>
    obtain ⟨rest, rfl⟩ := List.isPrefixOf_iff_prefix.1 found
    exact .done (.advance hs) h
  · split
    · exact Behaviour.Advances.fail _ s cs hs
    · exact Behaviour.Advances.fail _ s cs hs

/-- What a pattern finds is consumed. It has to be a front part of what lies ahead, which not all
patterns see to, so here they are required to lead. -/
theorem matchPattern {p : Pattern} (leads : p.Leads)
    (h : ∀ cs found, p.find? cs = some found → Q found (String.ofList found)) :
    (Rule.matchPattern p : Rule Γ String).Advances limits ρ Q E := by
  intro s cs hs
  show Run.Advances s Q E (State.matchPattern p s)
  rw [State.matchPattern, State.withAhead, hs]
  dsimp only
  cases hfind : p.find? cs with
  | none => exact Behaviour.Advances.fail _ s cs hs
  | some found =>
    obtain ⟨rest, rfl⟩ := leads cs found hfind
    exact .done (.advance hs) (h _ found hfind)

/-- At the end of the text nothing is left to consume, and before it the failure is reported where
the next character stands. -/
theorem ending {P : List Char → Unit → Prop} (h : P [] ()) :
    (Rule.ending : Rule Γ Unit).Advances limits ρ P E := by
  intro s cs hs
  show Run.Advances s P E (State.ending s)
  rw [State.ending, State.withAhead, hs]
  cases cs with
  | nil => exact .done (.stay hs) h
  | cons c cs => exact Behaviour.Advances.fail _ s (c :: cs) hs

/-- White space is consumed as far as it goes, and there is no failure: a text that begins with none
gives the empty text. -/
theorem skipBlanks (h : ∀ w, Blanks w → Q w (String.ofList w)) :
    (Rule.skipBlanks : Rule Γ String).Advances limits ρ Q E := by
  intro s cs hs
  show Run.Advances s Q E (State.skipBlanks s)
  rw [State.skipBlanks, State.withAhead, hs]
  rw [← cs.takeWhile_append_dropWhile (p := isBlank)] at hs
  exact .done (.advance hs) (h _ (blanks_takeWhile cs))

/-- What is left is handed out without being consumed, so the run stays where it is. -/
theorem rest (h : ∀ a, Q [] a) : (Rule.rest : Rule Γ String).Advances limits ρ Q E := by
  intro s cs hs
  show Run.Advances s Q E (State.rest s)
  rw [State.rest, State.withAhead, hs]
  exact .done (.stay hs) (h _)

end Operations

/-! ## Sequences -/

/-- What a sequence consumes is what its two parts consume. The second part is chosen by the first
value, so what it reads may depend on that. -/
theorem bind {P : List Char → β → Prop} {r : Rule Γ β} {next : β → Rule Γ α}
    (h : r.Advances limits ρ P E)
    (hnext : ∀ u b, P u b → (next b).Advances limits ρ (fun v => Q (u ++ v)) E) :
    (r >>= next).Advances limits ρ Q E :=
  fun s cs hs => (h s cs hs).andThen hnext

/-- A function of the value changes nothing of the way. -/
theorem map {P : List Char → β → Prop} {r : Rule Γ β} {f : β → α}
    (h : r.Advances limits ρ P E) (hf : ∀ u b, P u b → Q u (f b)) :
    Rule.Advances limits ρ (f <$> r) Q E :=
  fun s cs hs => (h s cs hs).map f hf

/-- The character ahead, consumed if it passes. The parsers for one character, and for one of
several, are both of this form. -/
theorem charIf (accepts : Char → Bool) (cause : Char → Cause) :
    Rule.Advances limits ρ
      (Rule.peek >>= fun c => if accepts c then Rule.char else Rule.fail (cause c))
      (fun u c => u = [c]) E := by
  refine bind (peek (P := fun u _ => u = []) fun _ => rfl) fun u c hu => ?_
  split
  · exact char fun d => by rw [hu]; rfl
  · exact fail _

/-- A value that does not pass fails behind itself, where the cursor stands, so the report is exact
although something was consumed. -/
theorem filter (h : r.Advances limits ρ P E) (accepts : α → Bool) (reason : String) :
    (r.filter accepts reason).Advances limits ρ P E := by
  refine bind h fun u a ha => ?_
  split
  · exact pure (by rwa [List.append_nil])
  · exact fail _

/-- Another sentence for a failure changes neither what was consumed nor where the failure is
reported. -/
theorem rephrase (h : r.Advances limits ρ P E) (reason : String) :
    (Rule.rephrase reason r).Advances limits ρ P E := by
  intro s cs hs
  show Run.Advances s P E ((r.run limits ρ s).orElse _)
  have run := h s cs hs
  generalize r.run limits ρ s = q at run ⊢
  cases run with
  | done way h => exact .done way h
  | failed way report =>
    -- The sentence is no part of what is claimed of a failure.
    obtain ⟨text, here, there⟩ := way
    obtain ⟨v, ⟨text', here', there'⟩, hv⟩ := report
    exact .failed (.mk text here there) ⟨v, .mk text' here' there', hv⟩
  | unfinished => exact .unfinished

/-! ## Attempts -/

/-- What was gone through before a failure is not taken back, so a missing value may stand for any
text. -/
theorem attempt {Q : List Char → Option α → Prop} (h : r.Advances limits ρ P F)
    (some : ∀ u a, P u a → Q u (some a)) (none : ∀ u, Q u none) :
    (Rule.attempt r).Advances limits ρ Q E := by
  intro s cs hs
  show Run.Advances s Q E (((r.run limits ρ s).map Option.some).orElse _)
  have run := h s cs hs
  generalize r.run limits ρ s = q at run ⊢
  cases run with
  | done way h => exact .done way (some _ _ h)
  | failed way report => exact .done way (none _)
  | unfinished => exact .unfinished

/-- The cursor goes back to the beginning, and the report stays where it was. So the failure is
reported ahead of the cursor, and the rule is not exact. -/
theorem rewind (h : r.Advances limits ρ P F) (hexact : ¬ E) :
    (Rule.rewind r).Advances limits ρ P E := by
  intro s cs hs
  show Run.Advances s P E ((r.run limits ρ s).orElse _)
  have run := h s cs hs
  generalize r.run limits ρ s = q at run ⊢
  cases run with
  | done way h => exact .done way h
  | @failed t u way report =>
    rw [Run.orElse, way.moveTo]
    exact .failed (way.back t.failure) (way.reports_back report hexact)
  | unfinished => exact .unfinished

/-- The cursor goes back to the beginning and takes the report along, so the whole is exact even
where its part is not. -/
theorem atomically (h : r.Advances limits ρ P F) :
    (Rule.atomically r).Advances limits ρ P E := by
  intro s cs hs
  show Run.Advances s P E ((r.run limits ρ s).orElse _)
  have run := h s cs hs
  generalize r.run limits ρ s = q at run ⊢
  cases run with
  | done way h => exact .done way h
  | @failed t u way report =>
    rw [Run.orElse, way.moveTo]
    have back := way.back { t.failure with position := s.cursor }
    exact .failed back (back.reports rfl)
  | unfinished => exact .unfinished

/-- An attempt that failed is taken back, so there is always a value: that of the part with what it
consumed, or none with nothing consumed. -/
theorem tryParse {Q : List Char → Option α → Prop} (h : r.Advances limits ρ P F)
    (some : ∀ u a, P u a → Q u (some a)) (none : Q [] none) :
    r.tryParse.Advances limits ρ Q E := by
  intro s cs hs
  show Run.Advances s Q E ((((r.run limits ρ s).orElse _).map Option.some).orElse _)
  have run := h s cs hs
  generalize r.run limits ρ s = q at run ⊢
  cases run with
  | done way h => exact .done way (some _ _ h)
  | failed way report =>
    simp only [Run.orElse, Run.map, Run.andThen, way.moveTo]
    exact .done (way.back _) none
  | unfinished => exact .unfinished

/-! ## Choices -/

/-- The failure of the first is dropped, so it need not be exact. -/
theorem orElse (hr : r.Advances limits ρ P F) (hs : s.Advances limits ρ P E) :
    (r.orElse s).Advances limits ρ P E := by
  intro t cs ht
  show Run.Advances t P E ((((r.run limits ρ t).orElse _).map Option.some).orElse _ |>.andThen _)
  have run := hr t cs ht
  generalize r.run limits ρ t = q at run ⊢
  cases run with
  | done way h => exact .done way h
  | @failed t' u way report =>
    simp only [Run.orElse, Run.map, Run.andThen, way.moveTo]
    have back := way.back t'.failure
    obtain ⟨_, there⟩ := back.arrives
    exact .behind back (hs _ _ there)
  | unfinished => exact .unfinished

/-- The failure of the last alternative is the only one that is left, and it is reported where that
alternative failed: hence a choice without labels is never exact. -/
theorem oneOf {rs : List (Rule Γ α)} (h : ∀ r ∈ rs, r.Advances limits ρ P F)
    (hexact : ¬ E) : (Rule.oneOf rs).Advances limits ρ P E := by
  induction rs with
  | nil => exact fail _
  | cons r rs ih =>
    have hr := h r List.mem_cons_self
    have hrs := ih fun s hs => h s (List.mem_cons_of_mem r hs)
    cases rs with
    | nil => exact hr.rewind hexact
    | cons s rs => exact hr.orElse hrs

/-- With labels, the failures of all alternatives are dropped: the choice records one of its own at
the beginning, so it is exact. -/
theorem oneOfLabeled {alternatives : List (String × Rule Γ α)}
    (h : ∀ a ∈ alternatives, a.2.Advances limits ρ P F) :
    (Rule.oneOfLabeled alternatives).Advances limits ρ P E := by
  rw [Rule.oneOfLabeled]
  generalize alternatives.map Prod.fst = labels
  induction alternatives with
  | nil => exact fail _
  | cons a alternatives ih =>
    have others := ih fun b hb => h b (List.mem_cons_of_mem a hb)
    exact (h a List.mem_cons_self).orElse others

/-! ## Repetitions -/

/-- What is consumed is a row of what the rounds consume. The last round failed and was taken back,
with its report dropped, so it need not be exact. -/
theorem many (h : r.Advances limits ρ P F) :
    (Rule.many r).Advances limits ρ (Row P) E := by
  suffices all : ∀ n, (Behaviour.repeatedly (r.run limits ρ) n).Advances (Row P) E from
    all limits.rounds
  intro n
  induction n with
  | zero => exact fun _ _ _ => .unfinished
  | succ n ih =>
    intro s cs hs
    rw [Behaviour.repeatedly]
    have run := h s cs hs
    generalize r.run limits ρ s = q at run ⊢
    cases run with
    | done way h =>
      obtain ⟨_, there⟩ := way.arrives
      exact .behind way ((ih _ _ there).map _ fun _ _ hrow => .cons h hrow)
    | @failed t u way report =>
      dsimp only
      rw [way.moveTo]
      exact .done (way.back t.failure) .nil
    | unfinished => exact .unfinished

/-- The row is the same, and an empty one is refused at the beginning. -/
theorem many1 (h : r.Advances limits ρ P F) :
    r.many1.Advances limits ρ (Row P) E := by
  refine atomically (F := E) (bind h.many fun u items hitems => ?_)
  split
  · exact fail _
  · exact pure (by rwa [List.append_nil])

/-! ## Brackets and chains -/

/-- What stands between is consumed with what is on either side of it. Taken back as a whole, the
sequence is exact whatever its parts are. -/
theorem bracket {B : List Char → β → Prop} {A : List Char → σ → Prop} {before : Rule Γ β}
    {after : Rule Γ σ} {inside : Rule Γ α} (hbefore : before.Advances limits ρ B F)
    (hafter : after.Advances limits ρ A F) (hinside : inside.Advances limits ρ P F)
    (hQ : ∀ u v w b a e, B u b → P v a → A w e → Q (u ++ (v ++ w)) a) :
    (Rule.bracket before after inside).Advances limits ρ Q E := by
  refine atomically (bind hbefore fun u b hb => bind hinside fun v a ha => ?_)
  refine bind hafter fun w e he => pure ?_
  rw [List.append_nil]
  exact hQ u v w b a e hb ha he

section Chains

variable {T : List Char → τ → Prop} {S : List Char → σ → Prop} {term : Rule Γ τ}
  {separator : Rule Γ σ}

/-- A separator and the term behind it, as one round of a chain reads them. -/
theorem link (hterm : term.Advances limits ρ T E)
    (hseparator : separator.Advances limits ρ S E) :
    (Rule.link term separator).Advances limits ρ (Chain.Link T S) E := by
  refine bind hseparator fun u s hs => bind hterm fun v t ht => pure ?_
  rw [List.append_nil]
  exact .mk hs ht

/-- A term is consumed, and then links as far as they go. A term that fails makes the whole fail at
the beginning, as all of it is taken back. -/
theorem chain1 (hterm : term.Advances limits ρ T F)
    (hseparator : separator.Advances limits ρ S F) :
    (Rule.chain1 term separator).Advances limits ρ (Chain.Spelled T S) E := by
  -- Where the first term fails, nothing is said of what was gone through.
  let H (u : List Char) (head : Option τ) : Prop := ∀ t ∈ head, T u t
  have first : (Rule.attempt term).Advances limits ρ H True :=
    attempt hterm (fun u t ht t' heq => by cases heq; exact ht) fun u t heq => by cases heq
  refine atomically (bind first fun u head hhead => ?_)
  cases head with
  | none => exact fail _
  | some head =>
    refine bind (many (link hterm hseparator)) fun v tail htail => pure ?_
    rw [List.append_nil]
    exact .links (hhead head rfl) htail

/-- Where no term begins the chain is empty and nothing is consumed, so this rule never fails. -/
theorem chain (hterm : term.Advances limits ρ T F)
    (hseparator : separator.Advances limits ρ S F) :
    (Rule.chain term separator).Advances limits ρ (Chain.Spelled T S) E := by
  have tried := tryParse (Q := fun u c => Chain.Spelled T S u (c.getD .empty)) (E := E) (F := E)
    (chain1 hterm hseparator) (fun _ _ h => h) .empty
  refine bind tried fun u c hc => pure ?_
  rwa [List.append_nil]

end Chains

section Folds

variable {T : List Char → τ → Prop} {S : List Char → σ → Prop} {combine : τ → τ → σ → τ}
  {term : Rule Γ τ} {separator : Rule Γ σ}

/-- The value is written like the chain that it is folded from. A chain without terms has no value
and fails, with nothing consumed. -/
theorem chainLeft
    (hcombine : ∀ u v w l s r, T u l → S v s → T w r → T (u ++ (v ++ w)) (combine l r s))
    (hterm : term.Advances limits ρ T F) (hseparator : separator.Advances limits ρ S F) :
    (Rule.chainLeft term separator combine).Advances limits ρ T E := by
  refine bind (chain hterm hseparator) fun u c hc => ?_
  cases hc with
  | empty => exact fail _
  | links hhead htail =>
    exact pure (by rw [List.append_nil]; exact Chain.written_foldLinksLeft hcombine hhead htail)

/-- The same of the other fold: which of the two it is makes no difference to what was consumed. -/
theorem chainRight
    (hcombine : ∀ u v w l s r, T u l → S v s → T w r → T (u ++ (v ++ w)) (combine l r s))
    (hterm : term.Advances limits ρ T F) (hseparator : separator.Advances limits ρ S F) :
    (Rule.chainRight term separator combine).Advances limits ρ T E := by
  refine bind (chain hterm hseparator) fun u c hc => ?_
  cases hc with
  | empty => exact fail _
  | links hhead htail =>
    exact pure (by rw [List.append_nil]; exact Chain.written_foldLinksRight hcombine hhead htail)

end Folds

/-! ## Definitions -/

/-- What the definition does where its stand-in does so, it does with any number of references
nested. -/
theorem recursive {body : Rule (α :: Γ) α}
    (h : ∀ b : Behaviour α, b.Advances P E →
      body.Advances limits (ρ.extend (some b)) P E) :
    (Rule.recursive body).Advances limits ρ P E :=
  .fixed h limits.depth

/-- A stand-in does what the environment has for it, and one that has nothing fails on the spot. -/
theorem reference {v : StandIn Γ α} (h : ∀ b ∈ ρ α v, b.Advances P E) :
    (Rule.reference v).Advances limits ρ P E := by
  intro s cs hs
  rw [Rule.run]
  cases hv : ρ α v with
  | none => exact Behaviour.Advances.fail .undefined s cs hs
  | some b => exact h b hv s cs hs

end Rule.Advances

end Descent
