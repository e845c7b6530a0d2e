/-
What a rule reads of the text ahead.

A rule *meets* a condition on a text when every run that has just this text ahead ends,
with a value or with a failure, and the condition holds of how it ended
(`Rule.Meets`). The condition sees the value together with what is then ahead, or `none`
for a failure. No run that meets a condition comes to a fault, and none is given up, so to
show what a rule reads is also to show that it ends.

The place where a failed run was left is not seen by conditions. All that counts of it is
that it is one, and the combinators that go on after a failure first go back.

What runs meet is put together in the way that runs are (`Run.Meets`), and from that each
kind of rule has one lemma.
-/
import Descent.Parser.Report

set_option autoImplicit false

namespace Descent

open Text

variable {Γ : Scope} {α β τ σ : Type}

/-! ## Runs -/

/-- The run, begun in the state, ended at a place of the same text, and as `Q` says. -/
inductive Run.Meets (s : State) (Q : Option (α × List Char) → Prop) : Run α → Prop
  | done {a : α} {t : State} {rest : List Char} (text : t.text = s.text)
      (ahead : t.ahead? = some rest) (h : Q (some (a, rest))) : Run.Meets s Q (.done a t)
  | failed {t : State} {rest : List Char} (text : t.text = s.text) (ahead : t.ahead? = some rest)
      (h : Q none) : Run.Meets s Q (.failed t)

/-- From every state with this text ahead, the run ends as `Q` says. -/
def Behaviour.Meets (b : Behaviour α) (cs : List Char) (Q : Option (α × List Char) → Prop) : Prop :=
  ∀ s : State, s.ahead? = some cs → (b s).Meets s Q

/-- The same of what a rule does. -/
def Rule.Meets (limits : Limits) (ρ : Environment Γ) (r : Rule Γ α) (cs : List Char)
    (Q : Option (α × List Char) → Prop) : Prop :=
  (r.run limits ρ).Meets cs Q

namespace State

variable {s t : State} {cs front back : List Char}

/-- Past a front part of what lies ahead, the rest of it lies ahead. Whatever consumes text is told
by this what comes next. -/
theorem ahead?_advance (h : s.ahead? = some (front ++ back)) :
    (s.advance front).ahead? = some back := by
  obtain ⟨before, htext, hcursor⟩ := append_of_drop h
  rw [ahead?, advance, htext, ← hcursor, ← byteLength_append, ← List.append_assoc]
  exact dropBytes_append (before ++ front) back

/-- Where the pattern finds something, that is the value, and the cursor moves by its length. -/
theorem matchPattern_of_find? {p : Pattern} {found : List Char} (ahead : s.ahead? = some cs)
    (h : p.find? cs = some found) :
    matchPattern p s = .done (String.ofList found) (s.advance found) := by
  rw [matchPattern, withAhead, ahead]
  dsimp only
  rw [h]

/-- Where it finds nothing, the failure names the source, and the cursor stays. -/
theorem matchPattern_of_find?_none {p : Pattern} (ahead : s.ahead? = some cs)
    (h : p.find? cs = none) : matchPattern p s = .failed (s.record (.noMatch p.source)) := by
  rw [matchPattern, withAhead, ahead]
  dsimp only
  rw [h]
  rfl

/-- Going back to where a run began is no fault, since a run that has text ahead of it began at a
place. -/
theorem moveTo_of_ahead? (h : s.ahead? = some cs) (htext : t.text = s.text) :
    moveTo s.cursor t = .done () { t with cursor := s.cursor } := by
  have place : IsPlace s.cursor t.text = true := by
    rw [IsPlace, htext]
    exact Option.isSome_iff_exists.2 ⟨cs, h⟩
  rw [moveTo, if_pos place]

end State

namespace Run.Meets

variable {s t : State} {cs : List Char} {q : Run α} {Q R : Option (α × List Char) → Prop}

/-- A condition may be weakened, for values and for failures alike. -/
theorem mono (h : Run.Meets s R q) (hQ : ∀ o, R o → Q o) : Run.Meets s Q q := by
  cases h with
  | done text ahead hR => exact .done text ahead (hQ _ hR)
  | failed text ahead hR => exact .failed text ahead (hQ _ hR)

/-- A run that goes on from another one is on the same text. -/
theorem trans (h : Run.Meets t Q q) (same : t.text = s.text) : Run.Meets s Q q := by
  cases h with
  | done text ahead hQ => exact .done (text.trans same) ahead hQ
  | failed text ahead hQ => exact .failed (text.trans same) ahead hQ

/-- What follows a value meets the condition on what is then ahead. A failure is passed on, so it
has to meet the condition of the whole. -/
theorem andThen {next : α → Behaviour β} {Q : Option (β × List Char) → Prop}
    (h : Run.Meets s R q) (none : R none → Q none)
    (some : ∀ a t rest, t.ahead? = some rest → R (some (a, rest)) → Run.Meets t Q (next a t)) :
    Run.Meets s Q (q.andThen next) := by
  cases h with
  | done text ahead hR => exact (some _ _ _ ahead hR).trans text
  | failed text ahead hR => exact .failed text ahead (none hR)

/-- A value is passed on, and after a failure it is the rescue that has to meet the condition, from
wherever the failed run was left. -/
theorem orElse {rescue : Behaviour α} (h : Run.Meets s R q)
    (some : ∀ a rest, R (some (a, rest)) → Q (some (a, rest)))
    (none : ∀ t rest, t.text = s.text → t.ahead? = .some rest → R none →
      Run.Meets s Q (rescue t)) : Run.Meets s Q (q.orElse rescue) := by
  cases h with
  | done text ahead hR => exact .done text ahead (some _ _ hR)
  | failed text ahead hR => exact none _ _ text ahead hR

/-- The condition on the whole is asked of the value under the function, with the same text ahead.
-/
theorem map {f : α → β} {Q : Option (β × List Char) → Prop} (h : Run.Meets s R q)
    (hQ : ∀ o, R o → Q (o.map fun (a, rest) => (f a, rest))) : Run.Meets s Q (q.map f) :=
  h.andThen (hQ none) fun _ _ _ ahead hR => .done rfl ahead (hQ _ hR)

/-- Back where it began, whatever then becomes of the slot: the text ahead is the one that the run
began with. -/
theorem back {a : α} (hs : s.ahead? = some cs) (text : t.text = s.text) (hQ : Q (some (a, cs)))
    (f : Failure) : Run.Meets s Q (.done a { t with cursor := s.cursor, failure := f }) :=
  .done text ((congrArg (dropBytes s.cursor) text).trans hs) hQ

/-- The same of a failure, which is then at a place of the text although nobody knows where it came
from. -/
theorem failedBack (hs : s.ahead? = some cs) (text : t.text = s.text) (hQ : Q none) (f : Failure) :
    Run.Meets s Q (.failed { t with cursor := s.cursor, failure := f } : Run α) :=
  .failed text ((congrArg (dropBytes s.cursor) text).trans hs) hQ

end Run.Meets

namespace Behaviour.Meets

variable {b : Behaviour α} {cs : List Char} {Q R : Option (α × List Char) → Prop}

/-- The same of a behaviour, from every state with this text ahead. -/
theorem mono (h : b.Meets cs R) (hQ : ∀ o, R o → Q o) : b.Meets cs Q :=
  fun s hs => (h s hs).mono hQ

/-- Once more, or no more and back. A repetition takes as many rounds as it needs, so to show that
it ends is to count them from the end. -/
theorem repeatedly (h : b.Meets cs R) {n : Nat} {Q : Option (List α × List Char) → Prop}
    (stop : R none → Q (some ([], cs)))
    (more : ∀ a rest, R (some (a, rest)) →
      (Behaviour.repeatedly b n).Meets rest fun o =>
        Q (o.map fun (as, rest') => (a :: as, rest'))) :
    (Behaviour.repeatedly b (n + 1)).Meets cs Q := by
  intro s hs
  have first := h s hs
  rw [Behaviour.repeatedly]
  generalize b s = run at first ⊢
  cases first with
  | @done a t rest text ahead hR =>
    have others := more a rest hR t ahead
    exact (others.map fun _ hQ => hQ).trans text
  | @failed t rest text ahead hR =>
    dsimp only
    rw [State.moveTo_of_ahead? hs text]
    exact .back hs text (stop hR) t.failure

end Behaviour.Meets

namespace Rule.Meets

variable {limits : Limits} {ρ : Environment Γ} {cs : List Char}
  {Q R : Option (α × List Char) → Prop} {r s : Rule Γ α}

/-- And of a rule, whose runs are those of its behaviour under the limits and in the environment. -/
theorem mono (h : r.Meets limits ρ cs R) (hQ : ∀ o, R o → Q o) : r.Meets limits ρ cs Q :=
  Behaviour.Meets.mono h hQ

/-! ## Elementary rules -/

/-- A value that reads nothing leaves all of the text ahead. -/
theorem pure {a : α} (h : Q (some (a, cs))) : (Rule.pure a : Rule Γ α).Meets limits ρ cs Q :=
  fun _ hs => .done rfl hs h

/-- For a failure there is nothing to be seen of the text. -/
theorem fail {cause : Cause} (h : Q none) : (Rule.fail cause : Rule Γ α).Meets limits ρ cs Q :=
  fun _ hs => .failed rfl hs h

/-- The next character, if there is one, with the text ahead as it was. -/
theorem peek {Q : Option (Char × List Char) → Prop} (h : Q (cs.head?.map fun c => (c, cs))) :
    (Rule.peek : Rule Γ Char).Meets limits ρ cs Q := by
  intro s hs
  show Run.Meets s Q (State.peek s)
  rw [State.peek, State.withAhead, hs]
  cases cs with
  | nil => exact .failed rfl hs h
  | cons c cs => exact .done rfl hs h

/-- The next character, if there is one, with the rest of the text ahead. -/
theorem char {Q : Option (Char × List Char) → Prop} (h : Q (cs.head?.map fun c => (c, cs.tail))) :
    (Rule.char : Rule Γ Char).Meets limits ρ cs Q := by
  intro s hs
  show Run.Meets s Q ((State.peek s).andThen fun c s => .done c (s.advance [c]))
  rw [State.peek, State.withAhead, hs]
  cases cs with
  | nil => exact .failed rfl hs h
  | cons c cs => exact .done rfl (State.ahead?_advance hs) h

section Operations

variable {Q : Option (String × List Char) → Prop}

/-- Where the text ahead begins with the expected one, that is consumed. The rest is named, so that
what follows can be said about it. -/
theorem literal {expected : String} {rest : List Char} (hcs : cs = expected.toList ++ rest)
    (h : Q (some (expected, rest))) :
    (Rule.literal expected : Rule Γ String).Meets limits ρ cs Q := by
  intro s hs
  rw [hcs] at hs
  show Run.Meets s Q (State.literal expected s)
  have starts : expected.toList.isPrefixOf (expected.toList ++ rest) = true := by simp
  rw [State.literal, State.withAhead, hs]
  dsimp only
  rw [if_pos starts]
  exact .done rfl (State.ahead?_advance hs) h

/-- Otherwise it fails, for one of two reasons that conditions do not see. -/
theorem literal_absent {expected : String} (hcs : ∀ rest, cs ≠ expected.toList ++ rest)
    (h : Q none) : (Rule.literal expected : Rule Γ String).Meets limits ρ cs Q := by
  intro s hs
  show Run.Meets s Q (State.literal expected s)
  have differs : ¬ expected.toList.isPrefixOf cs = true := by
    rw [List.isPrefixOf_iff_prefix]
    rintro ⟨rest, rfl⟩
    exact hcs rest rfl
  rw [State.literal, State.withAhead, hs]
  dsimp only
  rw [if_neg differs]
  split <;> exact .failed rfl hs h

/-- What the pattern finds is a front part of the text ahead, which has to be shown each time: a
pattern by itself may find something further on. -/
theorem matchPattern {p : Pattern} {found rest : List Char} (hcs : cs = found ++ rest)
    (hfound : p.find? cs = some found) (h : Q (some (String.ofList found, rest))) :
    (Rule.matchPattern p : Rule Γ String).Meets limits ρ cs Q := by
  intro s hs
  show Run.Meets s Q (State.matchPattern p s)
  rw [State.matchPattern, State.withAhead, hs]
  dsimp only
  rw [hfound]
  rw [hcs] at hs
  exact .done rfl (State.ahead?_advance hs) h

/-- Where a pattern finds nothing the rule fails, and nothing has been read that would have to be
given back. -/
theorem matchPattern_none {p : Pattern} (hfound : p.find? cs = none) (h : Q none) :
    (Rule.matchPattern p : Rule Γ String).Meets limits ρ cs Q := by
  intro s hs
  show Run.Meets s Q (State.matchPattern p s)
  rw [State.matchPattern, State.withAhead, hs]
  dsimp only
  rw [hfound]
  exact .failed rfl hs h

/-- White space ahead is consumed as far as it goes, and what is then ahead does not begin with any.
-/
theorem skipBlanks (h : Q (some (String.ofList (cs.takeWhile isBlank), cs.dropWhile isBlank))) :
    (Rule.skipBlanks : Rule Γ String).Meets limits ρ cs Q := by
  intro s hs
  show Run.Meets s Q (State.skipBlanks s)
  rw [State.skipBlanks, State.withAhead, hs]
  dsimp only
  rw [← cs.takeWhile_append_dropWhile (p := isBlank)] at hs
  exact .done rfl (State.ahead?_advance hs) h

end Operations

/-- At the end of the text it succeeds, and anywhere else it fails. -/
theorem ending {Q : Option (Unit × List Char) → Prop} (h : cs = [] → Q (some ((), [])))
    (hmore : cs ≠ [] → Q none) : (Rule.ending : Rule Γ Unit).Meets limits ρ cs Q := by
  intro s hs
  show Run.Meets s Q (State.ending s)
  rw [State.ending, State.withAhead, hs]
  cases cs with
  | nil => exact .done rfl hs (h rfl)
  | cons c cs => exact .failed rfl hs (hmore (List.cons_ne_nil c cs))

/-! ## Sequences -/

/-- The second rule is run on the text that the first one left, with the value that it read. If the
first one fails, so does the sequence. -/
theorem bind {r : Rule Γ β} {next : β → Rule Γ α} {R : Option (β × List Char) → Prop}
    (h : r.Meets limits ρ cs R) (none : R none → Q none)
    (some : ∀ a rest, R (some (a, rest)) → (next a).Meets limits ρ rest Q) :
    (r >>= next).Meets limits ρ cs Q :=
  fun s hs => (h s hs).andThen none fun a t rest ahead hR => some a rest hR t ahead

/-- The usual case: it is known what the first rule reads, and the second one goes on from there. -/
theorem bind_some {r : Rule Γ β} {next : β → Rule Γ α} {b : β} {rest : List Char}
    (h : r.Meets limits ρ cs (· = .some (b, rest))) (hnext : (next b).Meets limits ρ rest Q) :
    (r >>= next).Meets limits ρ cs Q := by
  refine bind h (fun heq => by cases heq) fun a rest' heq => ?_
  cases heq
  exact hnext

/-- A first part that is known to fail makes the sequence fail, whatever the second part is. -/
theorem bind_none {r : Rule Γ β} {next : β → Rule Γ α} (h : r.Meets limits ρ cs (· = .none)) :
    (r >>= next).Meets limits ρ cs (· = .none) :=
  bind h (fun _ => rfl) fun _ _ heq => by cases heq

/-- A function of the value is a sequence whose second part reads nothing. -/
theorem map {r : Rule Γ β} {f : β → α}
    (h : r.Meets limits ρ cs fun o => Q (o.map fun (b, rest) => (f b, rest))) :
    Rule.Meets limits ρ (f <$> r) cs Q :=
  bind h id fun _ _ hQ => pure hQ

/-! ## Attempts -/

/-- A failure becomes a missing value, with the text ahead that the failed run left: it may be any.
-/
theorem attempt {Q : Option (Option α × List Char) → Prop} (h : r.Meets limits ρ cs R)
    (none : R none → ∀ rest, Q (some (none, rest)))
    (some : ∀ a rest, R (some (a, rest)) → Q (some (some a, rest))) :
    (Rule.attempt r).Meets limits ρ cs Q := by
  intro s hs
  show Run.Meets s Q (((r.run limits ρ s).map Option.some).orElse fun s => .done Option.none s)
  have run := h s hs
  generalize r.run limits ρ s = q at run ⊢
  cases run with
  | done text ahead hR => exact .done text ahead (some _ _ hR)
  | failed text ahead hR => exact .done text ahead (none hR _)

/-- The condition on a failure says nothing of where it was reported, so taking it back leaves the
condition met. -/
theorem atomically (h : r.Meets limits ρ cs Q) : (Rule.atomically r).Meets limits ρ cs Q := by
  intro s hs
  refine (h s hs).orElse (fun _ _ hQ => hQ) fun t rest text ahead hQ => ?_
  rw [State.moveTo_of_ahead? hs text]
  exact .failedBack hs text hQ _

/-- The value, or none and back. As the cursor is taken back, the text ahead is known in both cases.
-/
theorem tryParse {Q : Option (Option α × List Char) → Prop} (h : r.Meets limits ρ cs R)
    (none : R none → Q (some (none, cs)))
    (some : ∀ a rest, R (some (a, rest)) → Q (some (some a, rest))) :
    r.tryParse.Meets limits ρ cs Q := by
  intro s hs
  show Run.Meets s Q ((((r.run limits ρ s).orElse _).map Option.some).orElse _)
  have run := h s hs
  generalize r.run limits ρ s = q at run ⊢
  cases run with
  | done text ahead hR => exact .done text ahead (some _ _ hR)
  | failed text ahead hR =>
    simp only [Run.orElse, Run.map, Run.andThen, State.moveTo_of_ahead? hs text]
    exact .back hs text (none hR) _

/-- Going back after a failure is seen by no condition. -/
theorem rewind (h : r.Meets limits ρ cs Q) : (Rule.rewind r).Meets limits ρ cs Q := by
  intro s hs
  refine (h s hs).orElse (fun _ _ hQ => hQ) fun t rest text ahead hQ => ?_
  rw [State.moveTo_of_ahead? hs text]
  exact .failedBack hs text hQ _

/-- The first, or else the second from the same place, so both are asked about one text. -/
theorem orElse (h : r.Meets limits ρ cs R)
    (some : ∀ a rest, R (some (a, rest)) → Q (some (a, rest)))
    (none : R none → s.Meets limits ρ cs Q) : (r.orElse s).Meets limits ρ cs Q := by
  intro t ht
  show Run.Meets t Q ((((r.run limits ρ t).orElse _).map Option.some).orElse _ |>.andThen _)
  have first := h t ht
  generalize r.run limits ρ t = q at first ⊢
  cases first with
  | done text ahead hR => exact .done text ahead (some _ _ hR)
  | @failed u rest text ahead hR =>
    -- The attempt went back before its failure was turned into a missing value.
    simp only [Run.orElse, Run.map, Run.andThen, State.moveTo_of_ahead? ht text]
    have back : State.ahead? { u with cursor := t.cursor } = Option.some cs :=
      (congrArg (dropBytes t.cursor) text).trans ht
    exact (none hR { u with cursor := t.cursor } back).trans text

/-- Every alternative before one that reads something fails, and those behind it are not tried. -/
theorem oneOfLabeled (before : List (String × Rule Γ α)) {after : List (String × Rule Γ α)}
    {label : String}
    (fails : ∀ a ∈ before, a.2.Meets limits ρ cs (· = Option.none))
    (h : r.Meets limits ρ cs fun o => o ≠ Option.none ∧ Q o) :
    (Rule.oneOfLabeled (before ++ (label, r) :: after)).Meets limits ρ cs Q := by
  rw [Rule.oneOfLabeled]
  generalize Rule.fail _ = last
  induction before with
  | nil => exact orElse h (fun _ _ hR => hR.2) fun hR => absurd rfl hR.1
  | cons a before ih =>
    have others := ih fun b hb => fails b (List.mem_cons_of_mem a hb)
    exact orElse (fails a List.mem_cons_self) (fun _ _ hR => absurd hR (by simp)) fun _ => others

/-- If all alternatives fail, so does the choice, and it ends: this is the case that rejects a text.
-/
theorem oneOfLabeled_none {alternatives : List (String × Rule Γ α)}
    (h : ∀ a ∈ alternatives, a.2.Meets limits ρ cs (· = Option.none)) :
    (Rule.oneOfLabeled alternatives).Meets limits ρ cs (· = Option.none) := by
  rw [Rule.oneOfLabeled]
  generalize alternatives.map Prod.fst = labels
  induction alternatives with
  | nil => exact fail rfl
  | cons a alternatives ih =>
    have others := ih fun b hb => h b (List.mem_cons_of_mem a hb)
    exact orElse (h a List.mem_cons_self) (fun _ _ heq => by cases heq) fun _ => others

/-- Whatever every alternative and a failure meet. This is for what is to be shown of a choice
without knowing which alternative is taken. -/
theorem oneOfLabeled_all {alternatives : List (String × Rule Γ α)}
    (h : ∀ a ∈ alternatives, a.2.Meets limits ρ cs fun o => o ≠ Option.none → Q o)
    (none : Q Option.none) : (Rule.oneOfLabeled alternatives).Meets limits ρ cs Q := by
  rw [Rule.oneOfLabeled]
  generalize alternatives.map Prod.fst = labels
  induction alternatives with
  | nil => exact fail none
  | cons a alternatives ih =>
    have others := ih fun b hb => h b (List.mem_cons_of_mem a hb)
    exact orElse (h a List.mem_cons_self) (fun _ _ hR => hR (by simp)) fun _ => others

/-! ## Definitions -/

/-- A stand-in meets what the definition behind it meets; that there is one is told by the
environment. -/
theorem reference {v : StandIn Γ α} {b : Behaviour α} (hv : ρ α v = Option.some b)
    (h : b.Meets cs Q) : (Rule.reference v).Meets limits ρ cs Q := by
  have run : (Rule.reference v).run limits ρ = b := by
    rw [Rule.run, hv]
  intro s hs
  rw [run]
  exact h s hs

/-! ## Whole runs -/

/-- With white space skipped first, a rule is asked about the text behind it. -/
theorem afterBlanks (h : r.Meets limits ρ (cs.dropWhile isBlank) Q) :
    (r.afterBlanks true).Meets limits ρ cs Q :=
  bind_some (skipBlanks rfl) h

/-- A run on a whole text is accepted where it ends with a value. -/
theorem verdict {r : Rule Γ α} {text : String}
    (h : r.Meets limits .undefined text.toList Q) :
    (∃ a rest, Q (some (a, rest)) ∧
      r.report.verdict limits text = .accepted a (String.ofList rest)) ∨
      Q none ∧ ∀ a rest, r.report.verdict limits text ≠ .accepted a rest := by
  have run := h (.start text) (dropBytes_zero text.toList)
  -- The report, with its first attempt in sight.
  change (∃ a rest, Q (some (a, rest)) ∧ Verdict.ofRun
      ((((r.run limits .undefined (.start text)).map Option.some).orElse _).andThen _) =
        .accepted a (String.ofList rest)) ∨ Q none ∧ ∀ a rest, Verdict.ofRun
      ((((r.run limits .undefined (.start text)).map Option.some).orElse _).andThen _) ≠
        .accepted a rest
  generalize r.run limits .undefined (.start text) = q at run ⊢
  cases run with
  | @done a t rest text ahead hQ =>
    left
    refine ⟨a, rest, hQ, ?_⟩
    show Verdict.ofRun ((State.rest t).andThen _) = _
    rw [State.rest, State.withAhead, ahead]
    rfl
  | @failed t rest text ahead hQ =>
    right
    refine ⟨hQ, fun a rest => ?_⟩
    show Verdict.ofRun ((State.locate t.failure.position t).andThen _) ≠ _
    rw [State.locate]
    cases Location.ofOffset? t.text t.failure.position <;> exact fun heq => by cases heq

end Rule.Meets

end Descent
