/-
Reading to the end.

A run to the end is the run of the parser alone, and then a look at what it left. So the verdict
of the one is told from the verdict of the other (`Parser.parseToEnd_eq_of_parse`). An error stays
the same error. A value is accepted where nothing is left but white space that may stand there,
and otherwise the first character that is left is reported at its place.

That the place can be counted from the end of the text takes a fact about all parsers: however a
parser is written, it leaves the text as it was (`Rule.keeps`), so what is ahead of it is a back
part of the text it was given.
-/
import Descent.Proofs.Endings
import Descent.Proofs.Keeping

set_option autoImplicit false

namespace Descent

open Text

variable {Γ : Scope} {α : Type}

/-! ## What is reported of a run -/

/-- The verdict on a text whose run ended so. A value comes with what is then ahead, a failure with
the line and the column that it is reported at. -/
def Run.verdict : Run α → Verdict α
  | .done a t =>
    match t.ahead? with
    | some rest => .accepted a (String.ofList rest)
    | none => .fault
  | .failed t =>
    match Location.ofOffset? t.text t.failure.position with
    | some l => .rejected ⟨t.failure.kind, t.failure.reason, t.failure.position, l⟩
    | none => .fault
  | .fault => .fault
  | .unfinished => .unfinished

/-- A failure that was recorded behind a front part of the text is reported there. -/
theorem Run.verdict_of_failure {t : State} {front back : List Char} {cause : Cause}
    (text : t.text = front ++ back) (failure : t.failure = .ofCause cause (byteLength front)) :
    (Run.failed t : Run α).verdict =
      .rejected ⟨cause.kind, cause.message, byteLength front, .after front⟩ := by
  have located : Location.ofOffset? t.text t.failure.position = some (.after front) := by
    rw [text, failure]
    exact Location.ofOffset?_append front back
  rw [verdict, located, failure]
  rfl

/-- A report is what a verdict is made of, put into a value by the rule itself. This lemma does away
with that, so only the run is left to be compared. -/
theorem Rule.verdict_report (r : Rule Γ α) (limits : Limits) (text : String) :
    r.report.verdict limits text = (r.run limits .undefined (.start text)).verdict := by
  -- The report, with its first attempt in sight.
  show Verdict.ofRun
    ((((r.run limits .undefined (.start text)).map some).orElse _).andThen _) = _
  cases r.run limits .undefined (.start text) with
  | done a t =>
    show Verdict.ofRun ((State.rest t).andThen _) = _
    rw [State.rest, State.withAhead, Run.verdict]
    cases t.ahead? <;> rfl
  | failed t =>
    show Verdict.ofRun ((State.locate t.failure.position t).andThen _) = _
    rw [State.locate, Run.verdict]
    cases Location.ofOffset? t.text t.failure.position <;> rfl
  | fault => rfl
  | unfinished => rfl

/-! ## The look at what is left -/

/-- What is left of the text ahead, without the white space before it if that is allowed. -/
def leftover (blanks : Bool) (rest : List Char) : List Char :=
  if blanks then rest.dropWhile isBlank else rest

/-- White space ends at a place, so what is behind it can be named. -/
theorem State.ahead?_behind_blanks {t : State} {rest : List Char} (ahead : t.ahead? = some rest) :
    (t.advance (rest.takeWhile isBlank)).ahead? = some (rest.dropWhile isBlank) := by
  refine ahead?_advance ?_
  rw [List.takeWhile_append_dropWhile, ahead]

namespace Rule

variable {limits : Limits} {ρ : Environment Γ} {t : State} {rest : List Char}

/-- White space is skipped once, whatever the rule behind it is. -/
theorem afterBlanks_run (r : Rule Γ α) (ahead : t.ahead? = some rest) :
    (r.afterBlanks true).run limits ρ t = r.run limits ρ (t.advance (rest.takeWhile isBlank)) := by
  show (State.skipBlanks t).andThen _ = _
  rw [State.skipBlanks, State.withAhead, ahead]
  rfl

/-- The look at the end comes behind the run of the rule alone. -/
theorem toEnd_run (r : Rule Γ α) (blanks : Bool) (s : State) :
    ((r.toEnd blanks).afterBlanks blanks).run limits ρ s =
      ((r.afterBlanks blanks).run limits ρ s).andThen fun a t =>
        ((afterBlanks blanks ending).run limits ρ t).andThen fun _ => Behaviour.pure a := by
  cases blanks with
  | false => rfl
  | true =>
    -- White space is skipped first in either, and a parser is run only if that succeeds.
    show (State.skipBlanks s).andThen _ = ((State.skipBlanks s).andThen _).andThen _
    cases State.skipBlanks s <;> rfl

variable (limits ρ) in
/-- It is a look from a place where just that is ahead which is left. -/
theorem ending_run_of_ahead (blanks : Bool) (ahead : t.ahead? = some rest) :
    ∃ w, (t.advance w).ahead? = some (leftover blanks rest) ∧
      (afterBlanks blanks ending).run limits ρ t = State.ending (t.advance w) := by
  cases blanks with
  | false => exact ⟨[], ahead, rfl⟩
  | true => exact ⟨_, State.ahead?_behind_blanks ahead, afterBlanks_run ending ahead⟩

/-- Where the cursor is at no place, to skip white space is a fault already. -/
theorem ending_run_of_fault (blanks : Bool) (nowhere : t.ahead? = none) :
    (afterBlanks blanks ending).run limits ρ t = .fault := by
  cases blanks with
  | false =>
    show State.ending t = .fault
    rw [State.ending, State.withAhead, nowhere]
  | true =>
    show (State.skipBlanks t).andThen _ = .fault
    rw [State.skipBlanks, State.withAhead, nowhere]
    rfl

end Rule

/-! ## The two verdicts -/

namespace Parser

variable {p : Parser Γ α} {limits : Limits} {text rest : String} {blanks : Bool} {a : α}

/-- A text is judged by the run of the rule, with white space before it where that is allowed. -/
theorem parse_eq_verdict (p : Parser Γ α) (limits : Limits) (text : String) (blanks : Bool) :
    p.parse limits text blanks =
      ((p.rule.afterBlanks blanks).run limits .undefined (.start text)).verdict :=
  Rule.verdict_report _ limits text

/-- The same with the look at the end behind the run, as a sequence of the two. -/
theorem parseToEnd_eq_verdict (p : Parser Γ α) (limits : Limits) (text : String)
    (blanks : Bool) :
    p.parseToEnd limits text blanks =
      (((p.rule.afterBlanks blanks).run limits .undefined (.start text)).andThen fun a t =>
        ((Rule.afterBlanks blanks .ending : Rule Γ Unit).run limits .undefined t).andThen fun _ =>
          Behaviour.pure a).verdict := by
  rw [parseToEnd, Rule.verdict_report, Rule.toEnd_run]

/-- A parser that accepts ends with a value, on the same text. -/
theorem exists_run_of_accepted (h : p.parse limits text blanks = .accepted a rest) :
    ∃ t, (p.rule.afterBlanks blanks).run limits .undefined (.start text) = .done a t ∧
      t.text = text.toList ∧ t.ahead? = some rest.toList := by
  have kept : ((p.rule.afterBlanks blanks).run limits .undefined (.start text)).Keeps False
      (.start text) := Rule.keeps limits False.elim .undefined _
  rw [parse_eq_verdict] at h
  generalize (p.rule.afterBlanks blanks).run limits .undefined (.start text) = q at kept h ⊢
  cases kept with
  | @done b t same =>
    rw [Run.verdict] at h
    split at h
    · next ahead =>
      obtain ⟨rfl, rfl⟩ := Verdict.accepted.inj h
      exact ⟨t, rfl, same.text, by rw [ahead, String.toList_ofList]⟩
    · cases h
  | @failed t same =>
    rw [Run.verdict] at h
    split at h <;> cases h
  | fault => cases h
  | unfinished => cases h

/-- What is not accepted is not looked at: the look comes behind a value, and there is none. -/
theorem parseToEnd_of_not_accepted
    (h : ∀ a rest, p.parse limits text blanks ≠ .accepted a rest) :
    p.parseToEnd limits text blanks = p.parse limits text blanks := by
  rw [parse_eq_verdict] at h ⊢
  rw [parseToEnd_eq_verdict]
  cases alone : (p.rule.afterBlanks blanks).run limits .undefined (.start text) with
  | done a t =>
    -- A value that is not accepted was left where nothing can be looked at.
    rw [alone, Run.verdict] at h
    cases ahead : t.ahead? with
    | some rest =>
      rw [ahead] at h
      exact absurd rfl (h a _)
    | none =>
      rw [Run.andThen, Rule.ending_run_of_fault blanks ahead, Run.verdict, ahead]
      rfl
  | failed t => rfl
  | fault => rfl
  | unfinished => rfl

/-- Nothing left is an end, and what is accepted then leaves no rest. -/
theorem parseToEnd_of_accepted (h : p.parse limits text blanks = .accepted a rest)
    (nothing : leftover blanks rest.toList = []) :
    p.parseToEnd limits text blanks = .accepted a "" := by
  obtain ⟨t, alone, -, ahead⟩ := exists_run_of_accepted h
  obtain ⟨w, there, look⟩ := Rule.ending_run_of_ahead limits .undefined blanks ahead
  rw [nothing] at there
  rw [parseToEnd_eq_verdict, alone, Run.andThen, look, State.ending, State.withAhead, there]
  show (Run.done a (t.advance w)).verdict = _
  rw [Run.verdict, there]

/-- The first character that is left is reported where it stands. -/
theorem parseToEnd_of_leftover (h : p.parse limits text blanks = .accepted a rest) {c : Char}
    {cs : List Char} (left : leftover blanks rest.toList = c :: cs) :
    ∃ front, text.toList = front ++ c :: cs ∧
      p.parseToEnd limits text blanks =
        .rejected ⟨.expectedEnd, (Cause.textLeft c).message, byteLength front, .after front⟩ := by
  obtain ⟨t, alone, same, ahead⟩ := exists_run_of_accepted h
  obtain ⟨w, there, look⟩ := Rule.ending_run_of_ahead limits .undefined blanks ahead
  rw [left] at there
  have split : dropBytes (t.advance w).cursor text.toList = some (c :: cs) := by
    rw [← same]
    exact there
  obtain ⟨front, htext, hfront⟩ := append_of_drop split
  refine ⟨front, htext, ?_⟩
  rw [parseToEnd_eq_verdict, alone, Run.andThen, look, State.ending, State.withAhead, there]
  show (Run.failed ((t.advance w).record (.textLeft c))).verdict = _
  have failure : ((t.advance w).record (.textLeft c)).failure =
      .ofCause (.textLeft c) (byteLength front) := by
    rw [hfront]
    rfl
  exact Run.verdict_of_failure (t := (t.advance w).record (.textLeft c)) (same.trans htext) failure

/-- **To read to the end is to read and to look at what is left**, and nothing else. What is not
accepted has the same verdict either way. A value is accepted where nothing is left, once white
space is skipped if that is allowed. Otherwise the first character that is left is named by the
error, whose place lies as far from the end of the text as what is left is long. -/
theorem parseToEnd_eq_of_parse (p : Parser Γ α) (limits : Limits) (text : String)
    (blanks : Bool) :
    match p.parse limits text blanks with
    | .accepted a rest =>
      (leftover blanks rest.toList = [] → p.parseToEnd limits text blanks = .accepted a "") ∧
      ∀ c cs, leftover blanks rest.toList = c :: cs →
        ∃ front position location, text.toList = front ++ c :: cs ∧
          position = byteLength text.toList - byteLength (c :: cs) ∧
          Location.ofOffset? text.toList position = some location ∧
          p.parseToEnd limits text blanks =
            .rejected ⟨.expectedEnd, "Expected EOF, but got '" ++ c.toString ++ "'.", position,
              location⟩
    | .rejected e => p.parseToEnd limits text blanks = .rejected e
    | .fault => p.parseToEnd limits text blanks = .fault
    | .unfinished => p.parseToEnd limits text blanks = .unfinished := by
  cases alone : p.parse limits text blanks with
  | accepted a rest =>
    refine ⟨parseToEnd_of_accepted alone, fun c cs left => ?_⟩
    obtain ⟨front, htext, rejected⟩ := parseToEnd_of_leftover alone left
    refine ⟨front, byteLength front, .after front, htext, ?_, ?_, rejected⟩
    · rw [htext, byteLength_append, Nat.add_sub_cancel]
    · rw [htext]
      exact Location.ofOffset?_append front (c :: cs)
  | rejected e | fault | unfinished =>
    refine (parseToEnd_of_not_accepted fun a rest accepted => ?_).trans alone
    cases alone.symm.trans accepted

/-- The place is counted in bytes, and the column in characters. What is left may begin with a
character of several bytes; it is named as a whole. -/
example :
    (Parser.literal "ż" : Parser [] String).parseToEnd ⟨1, 1⟩ "ż  ź!" true =
      .rejected ⟨.expectedEnd, "Expected EOF, but got 'ź'.", 4, ⟨1, 4⟩⟩ := by
  rfl

/-- The failure of an inner part, behind two characters that were read, is the verdict either
way. -/
example :
    let inner : Parser [] Char := .oneOf [.char 'ź', .char 'ż']
    let p : Parser [] (String × Char × Char) := (Parser.literal "ż").pair (inner.pair inner)
    p.parse ⟨1, 1⟩ "żźx" false =
        .rejected ⟨.literalMismatch, "Expected 'ż', but got 'x'.", 4, ⟨1, 3⟩⟩ ∧
      p.parseToEnd ⟨1, 1⟩ "żźx" false = p.parse ⟨1, 1⟩ "żźx" false := by
  exact ⟨rfl, rfl⟩

end Parser

end Descent
