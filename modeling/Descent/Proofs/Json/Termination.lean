/-
Reading JSON ends.

The reader of values refers to itself, and the chains of items and members go on as long as
they can. Neither goes on for ever. A nested reading begins behind an opening bracket that
the reading around it has read, so the number of brackets bounds how deep readings nest. A
further item or member begins behind a comma, so the number of characters bounds how many
there are. With limits beyond these two numbers no run is given up, and how far beyond them
makes no difference (`parse_ends`).

That a nested reading begins nowhere else is said by putting something else in its place.
Whatever that does at the places that are not behind such a bracket, the run is the same.
-/
import Descent.Proofs.Json.Parsing
import Descent.Proofs.Json.Progress
import Descent.Proofs.StandIns
import Descent.Proofs.Approximation

set_option autoImplicit false

namespace Descent

open Text

variable {Γ : Scope} {α : Type} {limits : Limits}

/-! ## Nested readings -/

namespace Json

variable {E : Prop} {s : State} {cs : List Char}

/-- Nested readings are done so. -/
def nested (self : Behaviour Value) : Environment [Value] :=
  Environment.undefined.extend (some self)

/-- Reading a value with so many readings nested at once, that one included. -/
def reading (limits : Limits) : Nat → Behaviour Value :=
  Behaviour.fixed fun self => (valueOf (.standIn .here)).rule.run limits (nested self)

/-- The parser of values is the fixed point, so it reads on any depth by nesting one reading less
inside. -/
theorem run_value (limits : Limits) :
    (value : Parser [] Value).rule.run limits .undefined = reading limits limits.depth :=
  rfl

/-- Reading goes forward or fails on any depth, zero included, where it is given up. -/
theorem advances_reading (limits : Limits) (depth : Nat) :
    (reading limits depth).Advances (fun _ _ => True) E :=
  .fixed (fun _ => advances_nested) depth

/-! ### Where nested readings begin -/

/-- Punctuation is skipped and matched from the cursor on, with no offset given to it. -/
theorem uses_punctuation (symbol : String) :
    (punctuation symbol : Parser Γ Unit).rule.Uses Operation.Onward :=
  have blanks : (Rule.skipBlanks : Rule Γ String).Uses Operation.Onward := ⟨trivial, fun _ => rfl⟩
  ⟨blanks, fun _ => ⟨⟨trivial, fun _ => rfl⟩, fun _ => ⟨blanks, fun _ => trivial⟩⟩⟩

/-- A member is put together from parts that only go forward, and a stand-in counts as one of these.
-/
theorem uses_member :
    (member (.standIn .here) : Parser (Value :: Γ) _).rule.Uses Operation.Onward := by
  have leads : Token.doubleQuotedPattern.Leads :=
    Token.leads_of_mem_patterns (by simp [Token.patterns])
  exact ⟨⟨⟨leads, fun _ => rfl⟩, fun _ => trivial⟩, fun _ =>
    ⟨uses_punctuation ":", fun _ => ⟨trivial, fun _ => trivial⟩⟩⟩

variable {self other : Behaviour Value}

/-- In brackets, only what nested readings do behind the opening one counts. -/
theorem bracketed_run_congr {before after : String} {opening : Char}
    (hbefore : before.toList = [opening]) {item : Rule [Value] α}
    (hitem : item.Uses Operation.Onward) (hself : self.Advances (fun _ _ => True) E)
    (hs : s.ahead? = some cs) (agree : ∀ u t, s.Through u t → opening ∈ u → other t = self t) :
    let bracketed : Rule [Value] (Chain α Unit) :=
      .bracket (punctuation before).rule (punctuation after).rule
        (item.chain (punctuation ",").rule)
    bracketed.run limits (nested other) s = bracketed.run limits (nested self) s := by
  have opened : (punctuation before : Parser [Value] Unit).rule.Advances limits (nested self)
      (Symbol opening) E := advances_punctuation hbefore
  refine Rule.bracket_run_congr opened hs rfl (fun u _ t way h => ?_) rfl
  have place : t.ahead?.isSome = true := Option.isSome_iff_exists.2 way.arrives
  refine (hitem.chain (uses_punctuation ",")).run_congr (fun halt β v => ?_)
    (Region.Holds.behind place)
  cases v with
  | outer v => cases v
  | here =>
    refine .some fun w hw => ?_
    obtain ⟨u', further⟩ := Region.Holds.exists_through place hw
    obtain ⟨_, there⟩ := further.arrives
    obtain ⟨_, _⟩ := h
    rw [agree _ w (way.trans further) (by simp)]
    exact (hself w _ there).inStep hw

/-- A token refers to nothing, so the environment makes no difference to it. -/
theorem decimal_run_eq (ρ ρ' : Environment Γ) :
    (Token.decimal : Parser Γ Binary64).rule.run limits ρ = Token.decimal.rule.run limits ρ' := by
  funext s
  refine congrArg (Run.andThen (State.matchPattern Token.decimalPattern s)) ?_
  funext numeral
  dsimp only
  split <;> rfl

/-- **A nested reading begins behind an opening bracket** that the reading around it has read:
what it does elsewhere makes no difference. -/
theorem valueOf_run_congr (hself : self.Advances (fun _ _ => True) E) (hs : s.ahead? = some cs)
    (agree : ∀ u t, s.Through u t → '[' ∈ u ∨ '\x7b' ∈ u → other t = self t) :
    (valueOf (.standIn .here)).rule.run limits (nested other) s =
      (valueOf (.standIn .here)).rule.run limits (nested self) s := by
  refine Rule.oneOfLabeled_run_congr (advances_alternatives (advances_standIn hself)) hs ?_
  -- In the order of the alternatives. A token asks for no other reading.
  refine forall_alternatives (C := fun r => ∀ t, s.Through [] t →
    r.run limits (nested other) t = r.run limits (nested self) t) (fun t _ => ?_) (fun _ _ => rfl)
    (fun _ _ => rfl) (fun _ _ => rfl) (fun t ht => ?_) (fun t ht => ?_)
  · exact Rule.map_run_congr (congrFun (decimal_run_eq _ _) t) _
  · obtain ⟨_, there⟩ := ht.arrives
    exact Rule.map_run_congr (bracketed_run_congr rfl uses_member hself there fun u w way hu =>
      agree u w (ht.trans way) (.inr hu)) _
  · obtain ⟨_, there⟩ := ht.arrives
    have uses : (Parser.standIn .here : Parser [Value] Value).rule.Uses Operation.Onward := trivial
    exact Rule.map_run_congr (bracketed_run_congr rfl uses hself there fun u w way hu =>
      agree u w (ht.trans way) (.inl hu)) _

/-! ### Further items and members -/

/-- An item begins behind a comma, and the comma has a byte of its own. So there are no more items
than bytes. -/
theorem cursor_lt_of_link {item : Rule Γ α} {ρ : Environment Γ} {t : State} {link : Unit × α}
    (hitem : item.Advances limits ρ (fun _ _ => True) E) (hs : s.ahead? = some cs)
    (run : (Rule.link item (punctuation ",").rule).run limits ρ s = .done link t) :
    s.cursor < t.cursor := by
  have comma : (punctuation "," : Parser Γ Unit).rule.Advances limits ρ (Symbol ',') E :=
    advances_punctuation rfl
  have way := hitem.link comma s cs hs
  rw [run] at way
  cases way with
  | done way h =>
    obtain ⟨⟨_, _⟩, _⟩ := h
    rw [way.cursor_eq]
    have := Char.utf8Size_pos ','
    simp only [byteLength_append, byteLength_cons]
    omega

end Json

/-! ## Whole runs -/

/-- A rule that ends comes to a verdict: neither making the report nor finding its line takes any
limits. -/
theorem Rule.Meets.verdict_ne_unfinished {r : Rule [] α} {text : String}
    {Q : Option (α × List Char) → Prop} (h : r.Meets limits .undefined text.toList Q) :
    r.report.verdict limits text ≠ .unfinished := by
  have run := h (.start text) (dropBytes_zero text.toList)
  change Verdict.ofRun
    ((((r.run limits .undefined (.start text)).map Option.some).orElse _).andThen _) ≠ _
  generalize r.run limits .undefined (.start text) = q at run ⊢
  cases run with
  | @done a t rest text ahead =>
    show Verdict.ofRun ((State.rest t).andThen _) ≠ _
    rw [State.rest, State.withAhead, ahead]
    exact fun h => by cases h
  | @failed t rest text ahead =>
    show Verdict.ofRun ((State.locate t.failure.position t).andThen _) ≠ _
    rw [State.locate]
    cases Location.ofOffset? t.text t.failure.position <;> exact fun h => by cases h

/-- Larger limits do not change a verdict that there is, as they do not change the run that it was
made from. -/
theorem Rule.verdict_eq_of_le {r : Rule [] (Report α)} {limits' : Limits} {text : String}
    (ends : r.verdict limits text ≠ .unfinished) (depth : limits.depth ≤ limits'.depth)
    (rounds : limits.rounds ≤ limits'.rounds) : r.verdict limits' text = r.verdict limits text := by
  rcases r.run_eq_or_unfinished depth rounds (.start text) with same | unfinished
  · rw [verdict, verdict, same]
  · rw [verdict, unfinished] at ends
    exact absurd rfl ends

namespace Json

/-- **Reading a text as JSON ends.** It does so with as many readings nested as there are
opening brackets, and one, and with as many rounds as there are characters, and one. More of
either make no difference. At any depth, a nested reading begins behind an opening bracket that
was read by the one around it: whatever `other` does elsewhere in its place, the run is the same.
And each further item or member moves the cursor forward. -/
theorem parse_ends (text : String) :
    parse text ≠ .unfinished ∧
    (∀ limits : Limits, openings text.toList + 1 ≤ limits.depth →
      text.toList.length + 1 ≤ limits.rounds →
      (value : Parser [] Value).parseToEnd limits text true = parse text) ∧
    (∀ (limits : Limits) (depth : Nat) (other : Behaviour Value) (s : State),
      IsPlace s.cursor s.text = true →
      (∀ u t, s.Through u t → '[' ∈ u ∨ '\x7b' ∈ u → other t = reading limits depth t) →
      (valueOf (.standIn .here)).rule.run limits (nested other) s =
        reading limits (depth + 1) s) ∧
    ∀ (limits : Limits) (depth : Nat) (s t : State), IsPlace s.cursor s.text = true →
      (∀ link, (Rule.link (Parser.standIn .here).rule (punctuation ",").rule).run limits
        (nested (reading limits depth)) s = .done link t → s.cursor < t.cursor) ∧
      ∀ link, (Rule.link (member (.standIn .here)).rule (punctuation ",").rule).run limits
        (nested (reading limits depth)) s = .done link t → s.cursor < t.cursor := by
  have ends : parse text ≠ .unfinished :=
    (wholeText_reads (within_limitsFor text)).verdict_ne_unfinished
  refine ⟨ends, fun limits depth rounds => Rule.verdict_eq_of_le ends depth rounds, ?_, ?_⟩
  · intro limits depth other s place agree
    obtain ⟨cs, ahead⟩ := Option.isSome_iff_exists.1 place
    exact valueOf_run_congr (E := True) (advances_reading limits depth) ahead agree
  · intro limits depth s t place
    obtain ⟨cs, ahead⟩ := Option.isSome_iff_exists.1 place
    have value : (Parser.standIn .here : Parser [Value] Value).rule.Advances limits
        (nested (reading limits depth)) (fun _ _ => True) True :=
      advances_standIn (advances_reading limits depth)
    exact ⟨fun _ => cursor_lt_of_link value ahead,
      fun _ => cursor_lt_of_link (advances_member value) ahead⟩

end Json

end Descent
