/-
How tokens go forward.

A token is a pattern that leads, and then reads no more. Whether what was found has a
meaning or not, it is consumed: a failure is reported behind it. So every token is exact.
-/
import Descent.Proofs.Advance
import Descent.Proofs.Token.Boolean

set_option autoImplicit false

namespace Descent.Token

variable {Γ : Scope} {limits : Limits} {ρ : Environment Γ} {E : Prop}

/-- Of a pattern that leads, the text that was found is the one that was gone through. -/
theorem advances_pattern {p : Pattern} (leads : p.Leads) :
    (Parser.pattern p : Parser Γ String).rule.Advances limits ρ (fun u s => u = s.toList) E :=
  Rule.Advances.matchPattern leads fun _ _ _ => String.toList_ofList.symm

/-- One of the patterns of the tokens, all of which lead. So tokens need not say so one by one. -/
theorem advances_of_mem {p : Pattern} (h : p ∈ patterns) :
    (Rule.matchPattern p : Rule Γ String).Advances limits ρ (fun u s => u = s.toList) E :=
  advances_pattern (leads_of_mem_patterns h)

/-- An integer out of range has been consumed when it is refused, and the failure is reported behind
it. -/
theorem advances_integer :
    (integer : Parser Γ Int64).rule.Advances limits ρ (fun _ _ => True) E := by
  refine Rule.Advances.bind (advances_of_mem (by simp [patterns])) fun u numeral _ => ?_
  split
  · exact .pure trivial
  · exact .fail _

/-- The same of a number that has no finite value. -/
theorem advances_decimal :
    (decimal : Parser Γ Binary64).rule.Advances limits ρ (fun _ _ => True) E := by
  refine Rule.Advances.bind (advances_of_mem (by simp [patterns])) fun u numeral _ => ?_
  split
  · exact .pure trivial
  · exact .fail _

/-- A quoted text has its meaning whatever is in it, so there is nothing that could fail behind the
pattern. -/
theorem advances_quoted {p : Pattern} (h : p ∈ patterns) (name : String) :
    (quoted name p : Parser Γ String).rule.Advances limits ρ (fun _ _ => True) E :=
  Rule.Advances.bind (advances_of_mem h) fun _ _ _ => .pure trivial

/-- A truth value is one of the two words, so what was gone through can be told from the value. -/
theorem advances_boolean : (boolean : Parser Γ Bool).rule.Advances limits ρ
    (fun u b => u = if b then "true".toList else "false".toList) E := by
  have word : (Rule.matchPattern booleanPattern : Rule Γ String).Advances limits ρ
      (fun u s => u = s.toList ∧ (s = "true" ∨ s = "false")) E := by
    refine .matchPattern (leads_of_mem_patterns (by simp [patterns])) fun cs found hfound =>
      ⟨String.toList_ofList.symm, ?_⟩
    rcases (eq_of_booleanPattern_find? hfound).1 with rfl | rfl
    · exact .inl rfl
    · exact .inr rfl
  refine Rule.Advances.bind word fun u s ⟨hu, hs⟩ => .pure ?_
  rw [List.append_nil, hu]
  rcases hs with rfl | rfl
  · rfl
  · rfl

end Descent.Token
