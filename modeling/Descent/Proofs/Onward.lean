/-
Where runs stop and where they report.

A parser that is put together from those of this library, of patterns that lead, only goes
forward (`Parser.Onward`). A run that succeeds ends where it began or behind. A run that
fails does so as well, and has not gone past the place that it reports. The two places are
one unless there is a choice without labels among the parts: that goes back to where it
began, and reports what its last alternative did.
-/
import Descent.Proofs.Json.Progress

set_option autoImplicit false

namespace Descent

open Text

variable {Γ : Scope} {α : Type}

namespace Parser

/-- The parser is put together from those of this library, with no rule written by hand, and its
patterns lead. Only if `choices` is there a choice without labels among its parts. -/
inductive Onward (choices : Bool) : {Γ : Scope} → {α : Type} → Parser Γ α → Prop
  | anyChar {Γ : Scope} : Onward choices (anyChar : Parser Γ Char)
  | char {Γ : Scope} (expected : Char) : Onward choices (char expected : Parser Γ Char)
  | charIn {Γ : Scope} (expected : List Char) : Onward choices (charIn expected : Parser Γ Char)
  | literal {Γ : Scope} (expected : String) : Onward choices (literal expected : Parser Γ String)
  | pattern {Γ : Scope} {p : Pattern} (leads : p.Leads) :
      Onward choices (pattern p : Parser Γ String)
  | ending {Γ : Scope} : Onward choices (ending : Parser Γ Unit)
  | peek {Γ : Scope} : Onward choices (peek : Parser Γ Char)
  | rest {Γ : Scope} : Onward choices (rest : Parser Γ String)
  | ret {Γ : Scope} {α : Type} (a : α) : Onward choices (ret a : Parser Γ α)
  | fail {Γ : Scope} {α : Type} (reason : String) : Onward choices (fail reason : Parser Γ α)
  | blanks {Γ : Scope} : Onward choices (Token.blanks : Parser Γ String)
  | blanks1 {Γ : Scope} : Onward choices (Token.blanks1 : Parser Γ String)
  | integer {Γ : Scope} : Onward choices (Token.integer : Parser Γ Int64)
  | decimal {Γ : Scope} : Onward choices (Token.decimal : Parser Γ Binary64)
  | boolean {Γ : Scope} : Onward choices (Token.boolean : Parser Γ Bool)
  | doubleQuoted {Γ : Scope} : Onward choices (Token.doubleQuoted : Parser Γ String)
  | singleQuoted {Γ : Scope} : Onward choices (Token.singleQuoted : Parser Γ String)
  | json {Γ : Scope} : Onward choices (Json.value : Parser Γ Json.Value)
  | map {Γ : Scope} {α β : Type} {p : Parser Γ α} (f : α → β) (h : Onward choices p) :
      Onward choices (p.map f)
  | pair {Γ : Scope} {α β : Type} {p : Parser Γ α} {q : Parser Γ β} (hp : Onward choices p)
      (hq : Onward choices q) : Onward choices (p.pair q)
  | andThen {Γ : Scope} {α β : Type} {p : Parser Γ α} {next : α → Parser Γ β}
      (hp : Onward choices p) (hnext : ∀ a, Onward choices (next a)) :
      Onward choices (p.andThen next)
  | filter {Γ : Scope} {α : Type} {p : Parser Γ α} (accepts : α → Bool) (reason : String)
      (h : Onward choices p) : Onward choices (p.filter accepts reason)
  | rephrase {Γ : Scope} {α : Type} {p : Parser Γ α} (reason : String) (h : Onward choices p) :
      Onward choices (p.rephrase reason)
  | atomically {Γ : Scope} {α : Type} {p : Parser Γ α} (h : Onward choices p) :
      Onward choices p.atomically
  | tryParse {Γ : Scope} {α : Type} {p : Parser Γ α} (h : Onward choices p) :
      Onward choices p.tryParse
  | many {Γ : Scope} {α : Type} {p : Parser Γ α} (h : Onward choices p) : Onward choices p.many
  | many1 {Γ : Scope} {α : Type} {p : Parser Γ α} (h : Onward choices p) : Onward choices p.many1
  | oneOf {Γ : Scope} {α : Type} {ps : List (Parser Γ α)} (allowed : choices = true)
      (h : ∀ p ∈ ps, Onward choices p) : Onward choices (.oneOf ps)
  | oneOfLabeled {Γ : Scope} {α : Type} {alternatives : List (String × Parser Γ α)}
      (h : ∀ a ∈ alternatives, Onward choices a.2) : Onward choices (.oneOfLabeled alternatives)
  | bracket {Γ : Scope} {α β σ : Type} {before : Parser Γ β} {after : Parser Γ σ}
      {inside : Parser Γ α} (hbefore : Onward choices before) (hafter : Onward choices after)
      (hinside : Onward choices inside) : Onward choices (.bracket before after inside)
  | chain1 {Γ : Scope} {τ σ : Type} {term : Parser Γ τ} {separator : Parser Γ σ}
      (hterm : Onward choices term) (hseparator : Onward choices separator) :
      Onward choices (term.chain1 separator)
  | chain {Γ : Scope} {τ σ : Type} {term : Parser Γ τ} {separator : Parser Γ σ}
      (hterm : Onward choices term) (hseparator : Onward choices separator) :
      Onward choices (term.chain separator)
  | chainLeft {Γ : Scope} {τ σ : Type} {term : Parser Γ τ} {separator : Parser Γ σ}
      (combine : τ → τ → σ → τ) (hterm : Onward choices term)
      (hseparator : Onward choices separator) :
      Onward choices (term.chainLeft separator combine)
  | chainRight {Γ : Scope} {τ σ : Type} {term : Parser Γ τ} {separator : Parser Γ σ}
      (combine : τ → τ → σ → τ) (hterm : Onward choices term)
      (hseparator : Onward choices separator) :
      Onward choices (term.chainRight separator combine)
  | standIn {Γ : Scope} {α : Type} (v : StandIn Γ α) : Onward choices (standIn v)
  | recursive {Γ : Scope} {α : Type} {define : Parser (α :: Γ) α → Parser (α :: Γ) α}
      (h : Onward choices (define (.standIn .here))) : Onward choices (.recursive define)
  | outlived {Γ : Scope} {α β : Type} {p : Parser (β :: Γ) α} (h : Onward choices p) :
      Onward choices p.outlived

/-- A parser of this kind goes forward, and is exact where it has no choices without labels. -/
theorem Onward.advances {choices : Bool} {p : Parser Γ α} (h : p.Onward choices) {limits : Limits}
    {ρ : Environment Γ}
    (hρ : ∀ (β : Type) (v : StandIn Γ β), ∀ b ∈ ρ β v,
      b.Advances (fun _ _ => True) (choices = false)) :
    p.rule.Advances limits ρ (fun _ _ => True) (choices = false) := by
  induction h with
  | anyChar => exact Rule.Advances.char fun _ => trivial
  | char | charIn => exact (Rule.Advances.charIf _ _).mono fun _ _ _ => trivial
  | literal => exact Rule.Advances.literal trivial
  | pattern leads => exact (Token.advances_pattern leads).mono fun _ _ _ => trivial
  | ending => exact Rule.Advances.ending trivial
  | peek => exact Rule.Advances.peek fun _ => trivial
  | rest => exact Rule.Advances.rest fun _ => trivial
  | ret => exact Rule.Advances.pure trivial
  | fail => exact Rule.Advances.fail _
  | blanks | blanks1 =>
    exact (Token.advances_of_mem (by simp [Token.patterns])).mono fun _ _ _ => trivial
  | integer => exact Token.advances_integer
  | decimal => exact Token.advances_decimal
  | boolean => exact Token.advances_boolean.mono fun _ _ _ => trivial
  | doubleQuoted | singleQuoted => exact Token.advances_quoted (by simp [Token.patterns]) _
  | json => exact Json.advances_value
  | map f _ ih => exact (ih hρ).map fun _ _ _ => trivial
  | pair _ _ ihp ihq =>
    exact (ihp hρ).bind fun _ _ _ => (ihq hρ).bind fun _ _ _ => Rule.Advances.pure trivial
  | andThen _ _ ihp ihnext => exact (ihp hρ).bind fun _ a _ => ihnext a hρ
  | filter accepts reason _ ih => exact (ih hρ).filter accepts reason
  | rephrase reason _ ih => exact (ih hρ).rephrase reason
  | atomically _ ih => exact (ih hρ).atomically
  | tryParse _ ih => exact (ih hρ).tryParse (fun _ _ _ => trivial) trivial
  | many _ ih => exact (ih hρ).many.mono fun _ _ _ => trivial
  | many1 _ ih => exact (ih hρ).many1.mono fun _ _ _ => trivial
  | oneOf allowed _ ih =>
    refine Rule.Advances.oneOf (F := choices = false) (fun r hr => ?_) (by simp [allowed])
    obtain ⟨p, hp, rfl⟩ := List.mem_map.1 hr
    exact ih p hp hρ
  | oneOfLabeled _ ih =>
    refine Rule.Advances.oneOfLabeled (F := choices = false) fun a ha => ?_
    obtain ⟨b, hb, rfl⟩ := List.mem_map.1 ha
    exact ih b hb hρ
  | bracket _ _ _ ihbefore ihafter ihinside =>
    exact (ihbefore hρ).bracket (ihafter hρ) (ihinside hρ) fun _ _ _ _ _ _ _ _ _ => trivial
  | chain1 _ _ ihterm ihseparator =>
    exact ((ihterm hρ).chain1 (ihseparator hρ)).mono fun _ _ _ => trivial
  | chain _ _ ihterm ihseparator =>
    exact ((ihterm hρ).chain (ihseparator hρ)).mono fun _ _ _ => trivial
  | chainLeft combine _ _ ihterm ihseparator =>
    exact Rule.Advances.chainLeft (fun _ _ _ _ _ _ _ _ _ => trivial) (ihterm hρ) (ihseparator hρ)
  | chainRight combine _ _ ihterm ihseparator =>
    exact Rule.Advances.chainRight (fun _ _ _ _ _ _ _ _ _ => trivial) (ihterm hρ) (ihseparator hρ)
  | standIn v => exact Rule.Advances.reference fun b hb => hρ _ v b hb
  | recursive _ ih =>
    refine Rule.Advances.recursive fun b hb => ih (Environment.forall_extend ?_ hρ)
    rintro _ ⟨⟩
    exact hb
  | outlived _ ih => exact ih (Environment.forall_extend (fun _ hb => by cases hb) hρ)

/-- **A failure is reported where the run stopped or behind**, and never before the place where it
began. Without unlabeled choices it is reported just where the run stopped. -/
theorem Onward.run_stops {choices : Bool} {p : Parser [] α} (h : p.Onward choices)
    (limits : Limits) {s : State} (place : IsPlace s.cursor s.text = true) :
    match p.rule.run limits .undefined s with
    | .done _ t => s.cursor ≤ t.cursor
    | .failed t =>
      s.cursor ≤ t.cursor ∧ t.cursor ≤ t.failure.position ∧
        t.failure.position ≤ byteLength s.text ∧
        (choices = false → t.cursor = t.failure.position)
    | .fault => False
    | .unfinished => True := by
  have advances : p.rule.Advances limits .undefined (fun _ _ => True) (choices = false) :=
    h.advances fun _ v => by cases v
  obtain ⟨cs, ahead⟩ := Option.isSome_iff_exists.1 place
  have way := advances s cs ahead
  generalize p.rule.run limits .undefined s = q at way ⊢
  cases way with
  | done way _ =>
    show s.cursor ≤ _
    rw [way.cursor_eq]
    exact Nat.le_add_right _ _
  | @failed t u way report =>
    obtain ⟨v, further, labeled⟩ := report
    have reached : t.failure.position = t.cursor + byteLength v := further.cursor_eq
    have within := Text.le_of_isPlace further.isPlace
    rw [way.text_eq] at within
    refine ⟨?_, ?_, within, fun h => ?_⟩
    · rw [way.cursor_eq]
      exact Nat.le_add_right _ _
    · rw [reached]
      exact Nat.le_add_right _ _
    · rw [reached, labeled h]
      rfl
  | unfinished => trivial

/-- The same alternatives without labels and with them, behind a character of two bytes. The last
one fails two letters further on. -/
theorem Onward.run_stops_choice :
    let alternatives : List (String × Parser [] Char) :=
      [("b", .char 'b'), ("abc", ((Parser.literal "ab").pair (.char 'c')).map Prod.snd)]
    let s : State := { State.start "żabd" with cursor := 2 }
    (∃ t, (Parser.oneOf (alternatives.map Prod.snd)).rule.run ⟨1, 1⟩ .undefined s = .failed t ∧
      2 ≤ t.cursor ∧ t.cursor < t.failure.position ∧ t.failure.position ≤ 5) ∧
    ∃ t, (Parser.oneOfLabeled alternatives).rule.run ⟨1, 1⟩ .undefined s = .failed t ∧
      2 ≤ t.cursor ∧ t.cursor = t.failure.position := by
  intro alternatives s
  have parts (choices : Bool) : ∀ a ∈ alternatives, a.2.Onward choices := by
    intro a ha
    simp only [alternatives, List.mem_cons, List.not_mem_nil, or_false] at ha
    rcases ha with rfl | rfl
    · exact .char 'b'
    · exact .map _ (.pair (.literal "ab") (.char 'c'))
  have unlabeled : (Parser.oneOf (alternatives.map Prod.snd)).Onward true := by
    refine .oneOf rfl fun p hp => ?_
    obtain ⟨a, ha, rfl⟩ := List.mem_map.1 hp
    exact parts true a ha
  have labeled : (Parser.oneOfLabeled alternatives).Onward false := .oneOfLabeled (parts false)
  constructor
  · obtain ⟨from2, -, within, -⟩ := Onward.run_stops unlabeled ⟨1, 1⟩ (s := s) (by decide)
    exact ⟨_, rfl, from2, by decide, within⟩
  · obtain ⟨from2, -, -, exact⟩ := Onward.run_stops labeled ⟨1, 1⟩ (s := s) (by decide)
    exact ⟨_, rfl, from2, exact rfl⟩

end Parser

end Descent
