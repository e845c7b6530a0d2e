/-
How reading JSON goes forward.

The parts of the JSON reader go forward whatever a nested reading does, as long as that goes
forward. Punctuation goes forward by at least one character. All parts are exact, as the only
choice has labels.
-/
import Descent.Proofs.Json.Derivation
import Descent.Proofs.Token.Advance
import Descent.Json.Grammar

set_option autoImplicit false

namespace Descent.Json

open Text

variable {Γ : Scope} {α : Type} {limits : Limits} {ρ : Environment Γ} {E F : Prop}

/-- What punctuation consumes is its symbol, with white space about it. So it never goes forward by
nothing. -/
theorem advances_punctuation {symbol : String} {c : Char} (hsymbol : symbol.toList = [c]) :
    (punctuation symbol : Parser Γ Unit).rule.Advances limits ρ (Symbol c) E := by
  have blanks : (Rule.skipBlanks : Rule Γ String).Advances limits ρ (fun w _ => Blanks w) E :=
    .skipBlanks fun _ hw => hw
  have literal : (Rule.literal symbol : Rule Γ String).Advances limits ρ (fun v _ => v = [c]) E :=
    .literal hsymbol
  refine Rule.Advances.bind blanks fun w _ hw => Rule.Advances.bind literal fun v _ hv => ?_
  refine Rule.Advances.bind blanks fun w' _ hw' => .pure ?_
  rw [hv, List.append_nil]
  exact .mk hw hw'

/-- In brackets, whatever the items are, the reading is exact: brackets are atomic, and a failure
inside is reported from their beginning. -/
theorem advances_bracketed {before after : String} {opening closing : Char}
    (hbefore : before.toList = [opening]) (hafter : after.toList = [closing]) {item : Rule Γ α}
    (hitem : item.Advances limits ρ (fun _ _ => True) F) :
    (Rule.bracket (punctuation before).rule (punctuation after).rule
      (item.chain (punctuation ",").rule)).Advances limits ρ (fun _ _ => True) E :=
  Rule.Advances.bracket (F := F) (advances_punctuation hbefore) (advances_punctuation hafter)
    (hitem.chain (advances_punctuation (c := ',') rfl)) fun _ _ _ _ _ _ _ _ _ => trivial

variable {value : Parser Γ Value}

/-- Key, colon and value in a row. The key alone makes sure that something is consumed, but that is
not needed here. -/
theorem advances_member (h : value.rule.Advances limits ρ (fun _ _ => True) E) :
    (member value).rule.Advances limits ρ (fun _ _ => True) E := by
  have key : (Token.doubleQuoted : Parser Γ String).rule.Advances limits ρ (fun _ _ => True) E :=
    Token.advances_quoted (by simp [Token.patterns]) _
  refine Rule.Advances.bind key fun _ _ _ => ?_
  refine Rule.Advances.bind (advances_punctuation (c := ':') rfl) fun _ _ _ => ?_
  exact Rule.Advances.bind h fun _ _ _ => .pure trivial

/-- The rules between which the reader of values chooses. -/
def alternatives (value : Parser Γ Value) : List (String × Rule Γ Value) :=
  [("a number", (Token.decimal.map .number).rule),
    ("a string", (Token.doubleQuoted.map .string).rule),
    ("a boolean", (Token.boolean.map .bool).rule),
    ("null", ((Parser.literal "null").map fun _ => .null).rule),
    ("an object", (object value).rule),
    ("an array", (array value).rule)]

/-- The reader of values is a choice with labels between these rules, by definition. -/
theorem valueOf_rule (value : Parser Γ Value) :
    (valueOf value).rule = .oneOfLabeled (alternatives value) :=
  rfl

/-- What is to be shown of every alternative is shown of each of the six. So lemmas on choices can
be applied without taking the list apart. -/
theorem forall_alternatives {C : Rule Γ Value → Prop} (number : C (Token.decimal.map .number).rule)
    (string : C (Token.doubleQuoted.map .string).rule) (bool : C (Token.boolean.map .bool).rule)
    (null : C ((Parser.literal "null").map fun _ => .null).rule) (object : C (object value).rule)
    (array : C (array value).rule) : ∀ a ∈ alternatives value, C a.2 := by
  intro a ha
  simp only [alternatives, List.mem_cons, List.not_mem_nil, or_false] at ha
  rcases ha with rfl | rfl | rfl | rfl | rfl | rfl
  · exact number
  · exact string
  · exact bool
  · exact null
  · exact object
  · exact array

/-- Tokens go forward by themselves, and so do brackets if their items do, whichever way nested
readings go. -/
theorem advances_alternatives (h : value.rule.Advances limits ρ (fun _ _ => True) E) :
    ∀ a ∈ alternatives value, a.2.Advances limits ρ (fun _ _ => True) E := by
  refine forall_alternatives (C := fun r => r.Advances limits ρ (fun _ _ => True) E)
    ?_ ?_ ?_ ?_ ?_ ?_
  · exact Token.advances_decimal.map fun _ _ _ => trivial
  · exact (Token.advances_quoted (by simp [Token.patterns]) _).map fun _ _ _ => trivial
  · exact Token.advances_boolean.map fun _ _ _ => trivial
  · exact Rule.Advances.map (P := fun _ _ => True) (.literal trivial) fun _ _ _ => trivial
  · exact (advances_bracketed rfl rfl (advances_member h)).map fun _ _ _ => trivial
  · exact (advances_bracketed rfl rfl h).map fun _ _ _ => trivial

/-- A choice with labels is exact whatever its alternatives are, for it reports its failure from
where it began. -/
theorem advances_valueOf (h : value.rule.Advances limits ρ (fun _ _ => True) F) :
    (valueOf value).rule.Advances limits ρ (fun _ _ => True) E := by
  rw [valueOf_rule]
  exact .oneOfLabeled (advances_alternatives h)

/-- Nested readings go forward where what stands for them does. -/
theorem advances_standIn {self : Behaviour Value} (h : self.Advances (fun _ _ => True) E) :
    (Parser.standIn .here : Parser (Value :: Γ) Value).rule.Advances limits (ρ.extend (some self))
      (fun _ _ => True) E :=
  Rule.Advances.reference fun _ hb => by cases hb; exact h

/-- What nested readings do, the reading around them does. This is the step of the induction on
depth. -/
theorem advances_nested {self : Behaviour Value} (h : self.Advances (fun _ _ => True) F) :
    (valueOf (.standIn .here) : Parser (Value :: Γ) Value).rule.Advances limits
      (ρ.extend (some self)) (fun _ _ => True) E :=
  advances_valueOf (advances_standIn h)

/-- By the fixed point: the reader goes forward if what nested readings do goes forward. -/
theorem advances_value :
    (Json.value : Parser Γ Value).rule.Advances limits ρ (fun _ _ => True) E :=
  .recursive fun _ => advances_nested

end Descent.Json
