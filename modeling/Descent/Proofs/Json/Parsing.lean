/-
Reading a whole text as JSON.

A text is accepted exactly when it is JSON by the grammar, and then as the value that it
derives (`parse_eq_accepted_iff`). Both directions rest on the same limits: one reading more
than there are opening brackets, and one round more than there are characters.
-/
import Descent.Proofs.Json.Completeness

set_option autoImplicit false

namespace Descent.Json

open Text

variable {Γ : Scope} {limits : Limits} {cs : List Char}

/-- The limits for a text are beyond its brackets and its characters by one, which is what a reading
from its beginning may use. -/
theorem within_limitsFor (text : String) :
    Within (limitsFor text) (limitsFor text).depth text.toList where
  depth := Nat.lt_succ_self _
  rounds := Nat.lt_succ_self _

/-- What is read to the end is JSON as a whole. -/
theorem wholeText_reads {ρ : Environment Γ} (hcs : Within limits limits.depth cs) :
    (((value : Parser Γ Value).rule.toEnd true).afterBlanks true).Meets limits ρ cs
      fun o => ∀ v rest, o = some (v, rest) → rest = [] ∧ DerivesText cs v := by
  refine Rule.Meets.afterBlanks ?_
  have hread := readValue_reads (ρ := ρ) (hcs.suffix (List.dropWhile_suffix isBlank))
  refine Rule.Meets.bind hread (fun _ v rest heq => by cases heq) fun v rest hv => ?_
  obtain ⟨u, hu, hv⟩ := hv v rest rfl
  -- Behind the value nothing but white space was left.
  refine Rule.Meets.bind (R := fun o => ∀ rest', o = some ((), rest') →
    rest' = [] ∧ rest.dropWhile isBlank = []) ?_ (fun _ v rest heq => by cases heq)
    fun _ rest' hrest => Rule.Meets.pure fun v' rest'' heq => ?_
  · refine Rule.Meets.afterBlanks (Rule.Meets.ending (fun h rest' heq => ?_) fun _ rest' heq => ?_)
    · cases heq
      exact ⟨rfl, h⟩
    · cases heq
  · cases heq
    obtain ⟨rfl, hblank⟩ := hrest rest' rfl
    refine ⟨rfl, ?_⟩
    obtain ⟨before, hderives, after⟩ := hv
    have hcs := cs.takeWhile_append_dropWhile (p := isBlank)
    have hrest := rest.takeWhile_append_dropWhile (p := isBlank)
    have all := Padded.mk ((blanks_takeWhile cs).append before) hderives
      (after.append (blanks_takeWhile rest))
    rw [hblank, List.append_nil] at hrest
    rw [hu, hrest.symm] at hcs
    rw [← hcs, DerivesText]
    simpa using all

/-- A text that is JSON as a whole is read to the end. -/
theorem wholeText_complete {ρ : Environment Γ} {v : Value} (h : DerivesText cs v)
    (within : Within limits limits.depth cs) :
    (((value : Parser Γ Value).rule.toEnd true).afterBlanks true).Meets limits ρ cs
      (· = some (v, [])) := by
  obtain @⟨w, u, w', _, hw, hu, hw'⟩ := h
  obtain ⟨c, ds, rfl, hc⟩ := hu.exists_head
  refine Rule.Meets.afterBlanks ?_
  rw [hw.dropWhile_append, dropWhile_isBlank_of_head fun d hd => by cases hd; exact hc]
  have ends : EndsValue w' := fun d hd => .inl (hw' d (List.mem_of_mem_head? hd))
  have read := readValue_complete limits ρ limits.depth hu ends
    (within.suffix (List.suffix_append w _))
  refine bind_leaves read fun w'' rest hw'' hrest => ?_
  have blank : rest.dropWhile isBlank = [] := by
    rw [← hw''.dropWhile_append, ← hrest, ← List.append_nil w', hw'.dropWhile_append]
    rfl
  refine Rule.Meets.bind_some
    (Rule.Meets.afterBlanks (Rule.Meets.ending (fun _ => rfl) fun h => ?_)) (Rule.Meets.pure rfl)
  exact absurd blank h

/-- What is accepted is JSON, with nothing left: the text was read to its end, and white space is
all that may stand there. -/
theorem derivesText_of_parse {text rest : String} {v : Value}
    (h : parse text = .accepted v rest) : rest = "" ∧ DerivesText text.toList v := by
  rcases (wholeText_reads (within_limitsFor text)).verdict with
    ⟨v', rest', hread, haccepted⟩ | ⟨-, hrejected⟩
  · obtain ⟨rfl, hderives⟩ := hread v' rest' rfl
    obtain ⟨rfl, rfl⟩ := Verdict.accepted.inj (h.symm.trans haccepted)
    exact ⟨rfl, hderives⟩
  · exact absurd h (hrejected v rest)

/-- JSON is accepted, as the value that it derives. The limits are made from the text so that they
suffice. -/
theorem parse_of_derivesText {text : String} {v : Value} (h : DerivesText text.toList v) :
    parse text = .accepted v "" := by
  rcases (wholeText_complete h (within_limitsFor text)).verdict with
    ⟨v', rest', heq, haccepted⟩ | ⟨heq, -⟩
  · cases heq
    exact haccepted
  · cases heq

/-- **A text is accepted exactly when it is JSON**, and with the value that it derives. -/
theorem parse_eq_accepted_iff (text : String) (v : Value) (rest : String) :
    parse text = .accepted v rest ↔ rest = "" ∧ DerivesText text.toList v := by
  constructor
  · exact derivesText_of_parse
  · rintro ⟨rfl, h⟩
    exact parse_of_derivesText h

end Descent.Json
