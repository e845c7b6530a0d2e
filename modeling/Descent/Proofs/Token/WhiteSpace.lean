/-
Two ways to skip white space.

White space is skipped by trimming what is ahead, and by a token whose pattern repeats a class of
characters as long as it can. Both go through the longest run of white space that there is, and
leave everything as it was but the cursor. So they agree wherever they are used, and the second
time there is nothing to skip. The token that needs some white space differs only where there is
none.

What was trimmed is told from lengths: it is as much shorter as the text has become. That is a
front part of the text, so it can be cut off there (`skipBlanks_eq_skipBlanksByLength`).
-/
import Descent.Proofs.Endings
import Descent.Proofs.Places
import Descent.Proofs.Token.LongestNumeral

set_option autoImplicit false

namespace Descent

open Text

variable {Γ : Scope} {s : State} {cs : List Char}

/-! ## The longest run -/

/-- A run of white space at the beginning is part of what is taken there. -/
theorem Text.longestPrefix_blanks (cs : List Char) :
    LongestPrefix Blanks cs (cs.takeWhile isBlank) where
  begins := List.takeWhile_prefix isBlank
  holds := blanks_takeWhile cs
  longest := by
    rintro other ⟨rest, rfl⟩ blank
    rw [List.takeWhile_append_of_pos blank, List.length_append]
    exact Nat.le_add_right _ _

/-- Behind that run, there is none, or it would have been longer. -/
theorem Text.isBlank_head?_dropWhile (cs : List Char) :
    ∀ c ∈ (cs.dropWhile isBlank).head?, isBlank c = false := by
  intro c hc
  have head := List.head?_dropWhile_not isBlank cs
  rw [hc] at head
  exact head

/-- So to skip white space for a second time is to skip nothing. -/
theorem Text.takeWhile_dropWhile_isBlank (cs : List Char) :
    (cs.dropWhile isBlank).takeWhile isBlank = [] := by
  have head := isBlank_head?_dropWhile cs
  generalize cs.dropWhile isBlank = rest at head
  cases rest with
  | nil => rfl
  | cons c rest => exact List.takeWhile_cons_of_neg (by simp [head c rfl])

/-! ## Trimming -/

namespace State

/-- The white space ahead, consumed. What was trimmed off is cut out by its length; there is a
fault where that is no place. -/
def skipBlanksByLength : Behaviour String := fun s =>
  s.withAhead fun rest =>
    let skipped := byteLength rest - byteLength (rest.dropWhile isBlank)
    match slice? rest 0 skipped with
    | some blanks => .done (String.ofList blanks) { s with cursor := s.cursor + skipped }
    | none => .fault

/-- What was trimmed off is as long as the run of white space. -/
theorem byteLength_sub_dropWhile (cs : List Char) :
    byteLength cs - byteLength (cs.dropWhile isBlank) = byteLength (cs.takeWhile isBlank) := by
  have whole := congrArg byteLength (cs.takeWhile_append_dropWhile (p := isBlank))
  rw [byteLength_append] at whole
  omega

/-- What is left after trimming is a back part of the text, so the difference in length is where
that begins, and the cut is never a fault. -/
theorem skipBlanks_eq_skipBlanksByLength : skipBlanks = skipBlanksByLength := by
  funext s
  rw [skipBlanks, skipBlanksByLength, withAhead, withAhead]
  cases s.ahead? with
  | none => rfl
  | some cs =>
    have cut := slice?_front (cs.takeWhile isBlank) (cs.dropWhile isBlank)
    rw [List.takeWhile_append_dropWhile] at cut
    dsimp only
    rw [byteLength_sub_dropWhile, cut]
    rfl

/-- From a place, all white space ahead is consumed, and none is no failure. -/
theorem skipBlanks_of_ahead (ahead : s.ahead? = some cs) :
    skipBlanks s =
      .done (String.ofList (cs.takeWhile isBlank)) (s.advance (cs.takeWhile isBlank)) := by
  rw [skipBlanks, withAhead, ahead]

/-- Behind the white space is what trimming has left, so the two ways to skip it go on from the same
place. -/
theorem ahead?_advance_blanks (ahead : s.ahead? = some cs) :
    (s.advance (cs.takeWhile isBlank)).ahead? = some (cs.dropWhile isBlank) := by
  refine ahead?_advance ?_
  rw [ahead, List.takeWhile_append_dropWhile]

end State

/-! ## The patterns -/

namespace Token

/-- The source of the pattern is read by evaluation. From here on it is a repetition of a set. -/
theorem blanksPattern_find?_eq (text : List Char) :
    blanksPattern.find? text =
      (Regex.repeated 0 none true (.set .blank)).first Match.accept none text :=
  Pattern.find?_ofSource _ (by decide) (by decide) (by decide) text

/-- Likewise the other source, where the repetition needs one round. -/
theorem blanks1Pattern_find?_eq (text : List Char) :
    blanks1Pattern.find? text =
      (Regex.repeated 1 none true (.set .blank)).first Match.accept none text :=
  Pattern.find?_ofSource _ (by decide) (by decide) (by decide) text

/-- A greedy repetition of a set takes all members of it, and then there is nothing left to go on
with. -/
theorem blanksPattern_find? (cs : List Char) :
    blanksPattern.find? cs = some (cs.takeWhile isBlank) := by
  have all : Match.Takes ((Regex.repeated 0 none true (.set .blank)).first Match.accept)
      (cs.takeWhile isBlank ++ cs.dropWhile isBlank) (cs.takeWhile isBlank ++ []) :=
    Match.Takes.setStar (blanks_takeWhile cs) (isBlank_head?_dropWhile cs) Match.Takes.accept
  rw [List.takeWhile_append_dropWhile, List.append_nil] at all
  rw [blanksPattern_find?_eq, all]

/-- Where there is white space, all of it is found. -/
theorem blanks1Pattern_find? (nonempty : cs.takeWhile isBlank ≠ []) :
    blanks1Pattern.find? cs = some (cs.takeWhile isBlank) := by
  obtain ⟨c, blanks, run⟩ := List.exists_cons_of_ne_nil nonempty
  have all : Match.Takes ((Regex.repeated 1 none true (.set .blank)).first Match.accept)
      (c :: blanks ++ cs.dropWhile isBlank) (c :: blanks ++ []) :=
    Match.Takes.setPlus (run ▸ blanks_takeWhile cs) (isBlank_head?_dropWhile cs) Match.Takes.accept
  rw [← run, List.takeWhile_append_dropWhile, List.append_nil] at all
  rw [blanks1Pattern_find?_eq, all]

/-- Where there is none, the other pattern finds nothing, for what it finds is white space and not
empty. -/
theorem blanks1Pattern_find?_none (empty : cs.takeWhile isBlank = []) :
    blanks1Pattern.find? cs = none := by
  cases found : blanks1Pattern.find? cs with
  | none => rfl
  | some blanks =>
    rw [blanks1Pattern_find?_eq] at found
    obtain ⟨spells, rest, text⟩ := Regex.spells_of_first found
    obtain ⟨least, blank⟩ := Regex.spells_setRow.1 spells
    have longest := (longestPrefix_blanks cs).longest blanks ⟨rest, text.symm⟩ blank
    rw [empty, List.length_nil] at longest
    omega

/-! ## The tokens -/

/-- **All ways to skip white space agree.** Skipping it, by a run of characters or by the lengths
before and after trimming, and the token for it go through the longest run of white space ahead,
and leave the rest of the state as it was, the last failure too. The token that needs some does so
as well, unless the run is empty, and then it fails where it stands. Behind the run, nothing is
skipped. -/
theorem blanks_run_eq_skipBlanks (limits : Limits) (ρ : Environment Γ) {s : State} {cs : List Char}
    (ahead : s.ahead? = some cs) : ∃ found, LongestPrefix Blanks cs found ∧
      let v : State := { s with cursor := s.cursor + byteLength found }
      State.skipBlanks s = .done (String.ofList found) v ∧
      State.skipBlanksByLength s = .done (String.ofList found) v ∧
      blanks.rule.run limits ρ s = .done (String.ofList found) v ∧
      (found ≠ [] → blanks1.rule.run limits ρ s = .done (String.ofList found) v) ∧
      (found = [] → blanks1.rule.run limits ρ s = .failed { s with failure := {
        kind := .patternMismatch
        reason := "Expected pattern '\\s+', but there was no match."
        position := s.cursor } }) ∧
      State.skipBlanks v = .done "" v ∧ blanks.rule.run limits ρ v = .done "" v := by
  refine ⟨cs.takeWhile isBlank, longestPrefix_blanks cs, ?_⟩
  intro v
  have skipped : State.skipBlanks s = .done (String.ofList (cs.takeWhile isBlank)) v :=
    State.skipBlanks_of_ahead ahead
  have rest : v.ahead? = some (cs.dropWhile isBlank) := State.ahead?_advance_blanks ahead
  -- Nothing is skipped the second time, and so the cursor stays.
  have stay : v.advance [] = v := rfl
  refine ⟨skipped, State.skipBlanks_eq_skipBlanksByLength ▸ skipped, ?_, ?_, ?_, ?_, ?_⟩
  · exact State.matchPattern_of_find? ahead (blanksPattern_find? cs)
  · exact fun nonempty => State.matchPattern_of_find? ahead (blanks1Pattern_find? nonempty)
  · exact fun empty => State.matchPattern_of_find?_none ahead (blanks1Pattern_find?_none empty)
  · rw [State.skipBlanks_of_ahead rest, takeWhile_dropWhile_isBlank, stay]
  · have again := State.matchPattern_of_find? rest (blanksPattern_find? (cs.dropWhile isBlank))
    rw [takeWhile_dropWhile_isBlank, stay] at again
    exact again

/-- White space of one, two and three bytes, with a failure in the slot. -/
theorem blanks_run_eq_skipBlanks_wide :
    let s : State :=
      { text := "a \u00A0\u3000b".toList, cursor := 1, failure := .ofCause .endOfText 0 }
    let v : State := { s with cursor := 7 }
    s.ahead? = some " \u00A0\u3000b".toList ∧
      State.skipBlanks s = .done " \u00A0\u3000" v ∧
      (blanks : Parser [] String).rule.run ⟨0, 0⟩ .undefined s = .done " \u00A0\u3000" v ∧
      (blanks1 : Parser [] String).rule.run ⟨0, 0⟩ .undefined s = .done " \u00A0\u3000" v := by
  intro s v
  have ahead : s.ahead? = some " \u00A0\u3000b".toList := by decide
  have skips : State.skipBlanks s = .done " \u00A0\u3000" v := by decide
  obtain ⟨found, -, skipped, -, token, token1, -⟩ :=
    blanks_run_eq_skipBlanks ⟨0, 0⟩ (.undefined : Environment []) ahead
  have same := skipped.symm.trans skips
  have nonempty : found ≠ [] := by
    rintro rfl
    exact absurd same (by decide)
  exact ⟨ahead, skips, token.trans same, (token1 nonempty).trans same⟩

end Token

end Descent
