/-
What the token of truth values reads.

Either of two words is read, and only where the word ends there: no word character may
follow. What stands before the word plays no part, as its own characters are word
characters.
-/
import Descent.Proofs.Pattern.Spelling
import Descent.Token

set_option autoImplicit false

namespace Descent.Token

open Text

/-! ## The expression -/

/-- The character, and then each of the others in turn. -/
def wordRegex (c : Char) : List Char → Regex
  | [] => .set (.single c)
  | d :: cs => .seq (.set (.single c)) (wordRegex d cs)

/-- The expression that is read from the source of the pattern. -/
def booleanRegex : Regex :=
  .seq (.alt (wordRegex 't' ['r', 'u', 'e']) (wordRegex 'f' ['a', 'l', 's', 'e']))
    (.assertion .wordEdge)

set_option maxRecDepth 4000 in
/-- The source of the pattern is read once, by evaluation, and from here on there is only the
meaning of the expression. -/
theorem booleanPattern_find?_eq (text : List Char) :
    booleanPattern.find? text = booleanRegex.first Match.accept none text :=
  Pattern.find?_ofSource _ (by decide) (by decide) (by decide) text

/-- Letters one behind the other spell a single text. This fixes which of the two words was found.
-/
theorem spells_word {c : Char} {cs ds : List Char} (h : (wordRegex c cs).Spells ds) :
    ds = c :: cs := by
  induction cs generalizing c ds with
  | nil =>
    obtain ⟨d, rfl, hd⟩ := h
    simpa using hd
  | cons d cs ih =>
    obtain ⟨_, back, rfl, ⟨e, rfl, he⟩, hback⟩ := h
    rw [CharSet.mem_single, beq_iff_eq] at he
    rw [ih hback, he]
    rfl

/-- Behind the word, the last of its characters is what stands before. -/
theorem first_word (c : Char) (cs : List Char) (k : Match) (before : Option Char)
    (rest : List Char) :
    (wordRegex c cs).first k before (c :: (cs ++ rest)) =
      (k ((c :: cs).getLast?) rest).map (c :: cs ++ ·) := by
  induction cs generalizing c before with
  | nil =>
    rw [wordRegex, List.nil_append, Regex.first_set_cons, if_pos (by simp)]
    rfl
  | cons d cs ih =>
    rw [wordRegex, Regex.first, List.cons_append, Regex.first_set_cons, if_pos (by simp), ih,
      List.getLast?_cons_cons, Option.map_map]
    rfl

/-! ## What is found -/

/-- Only the two words are found, and nothing of what follows, as the edge of a word is no
character. -/
theorem eq_of_booleanPattern_find? {text found : List Char}
    (h : booleanPattern.find? text = some found) :
    (found = "true".toList ∨ found = "false".toList) ∧ ∃ rest, text = found ++ rest := by
  rw [booleanPattern_find?_eq] at h
  obtain ⟨⟨word, _, rfl, hword, rfl⟩, rest, rfl⟩ := Regex.spells_of_first h
  rw [List.append_nil]
  refine ⟨?_, rest, rfl⟩
  rcases hword with hword | hword
  · exact .inl (spells_word hword)
  · exact .inr (spells_word hword)

/-- A word whose last character is a word character ends where no other follows. -/
theorem takes_word {c : Char} {cs rest : List Char}
    (last : ∀ d ∈ (c :: cs).getLast?, isWordChar d = true)
    (hrest : ∀ d ∈ rest.head?, isWordChar d = false) :
    Match.Takes ((wordRegex c cs).first ((Regex.assertion .wordEdge).first Match.accept))
      (c :: (cs ++ rest)) (c :: cs) := by
  have before : (c :: cs).getLast?.any isWordChar = true := by
    rw [List.getLast?_eq_some_getLast (List.cons_ne_nil c cs)] at last ⊢
    exact last _ rfl
  have after : rest.head?.any isWordChar = false := by
    cases rest with
    | nil => rfl
    | cons d rest => exact hrest d rfl
  intro b
  rw [first_word]
  simp [Regex.first, Assertion.holds, before, after, Match.accept]

/-- A truth value is found where its word ends. In a longer word, such as a name that begins like
it, it is not. -/
theorem booleanPattern_find?_word (b : Bool) {rest : List Char}
    (hrest : ∀ c ∈ rest.head?, isWordChar c = false) :
    booleanPattern.find? ((if b then "true".toList else "false".toList) ++ rest) =
      some (if b then "true".toList else "false".toList) := by
  rw [booleanPattern_find?_eq]
  have last : isWordChar 'e' = true := by decide
  cases b with
  | true => exact Match.Takes.left (takes_word (fun d hd => by cases hd; exact last) hrest) none
  | false =>
    have miss (k : Match) : Match.Misses ((wordRegex 't' ['r', 'u', 'e']).first k)
        ("false".toList ++ rest) := Match.Misses.set fun c hc => by cases hc; decide
    exact Match.Takes.right (miss _) (takes_word (fun d hd => by cases hd; exact last) hrest) none

end Descent.Token
