/-
Patterns that match where they are tried.

A pattern is made to match at the beginning of what it searches, but a source that closes
the group around it can escape that. A run moves by the length of what was found, wherever
it was found, so what counts is that this is a front part of the text ahead (`Leads`). A
pattern whose expression is anchored leads, and the patterns of the tokens are of that kind.
-/
import Descent.Token

set_option autoImplicit false

namespace Descent

/-- What a match reads is read at the beginning of the text. -/
theorem Automaton.matchThreads_prefix {A : Automaton} {before : Option Char} {threads : List Nat}
    {text found : List Char} (h : A.matchThreads before threads text = some found) :
    found <+: text := by
  induction text generalizing before threads found with
  | nil =>
    cases threads with
    | nil => cases h
    | cons n threads =>
      rw [matchThreads] at h
      split at h
      · cases h
        exact List.nil_prefix
      · cases h
  | cons c cs ih =>
    cases threads with
    | nil => cases h
    | cons n threads =>
      rw [matchThreads] at h
      split at h
      · next later hlater =>
        cases h
        exact (List.prefix_cons_inj c).2 (ih hlater)
      · split at h
        · cases h
          exact List.nil_prefix
        · cases h

namespace Pattern

/-- Whatever the pattern finds, the text begins with. A pattern that matches only at the very
start of a text is of this kind. -/
def Leads (p : Pattern) : Prop :=
  ∀ text found, p.find? text = some found → found <+: text

/-- An anchored pattern is looked for at one place only, so what it finds begins there. -/
theorem leads_of_anchored {p : Pattern} (h : p.automaton.anchored = true) : p.Leads := by
  intro text found hfound
  rw [find?, Automaton.find?, if_pos h] at hfound
  exact Automaton.matchThreads_prefix hfound

end Pattern

namespace Token

/-- The patterns that tokens are made of. -/
def patterns : List Pattern :=
  [blanksPattern, blanks1Pattern, integerPattern, decimalPattern, booleanPattern,
    doubleQuotedPattern, singleQuotedPattern]

/-- Each of these sources is put in a group behind an anchor, and the automaton is seen to be
anchored by evaluation. -/
theorem leads_of_mem_patterns {p : Pattern} (h : p ∈ patterns) : p.Leads := by
  have anchored : patterns.all (fun p => p.automaton.anchored) = true := by decide
  exact Pattern.leads_of_anchored (List.all_eq_true.1 anchored p h)

end Token

end Descent
