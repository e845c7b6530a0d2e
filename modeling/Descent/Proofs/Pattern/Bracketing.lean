/-
Sources in brackets.

What is read for a source is not the source but a text around it, in which `^` stands before
a group that the source is meant to fill. Whether it does is not looked at. A source that is
an expression by itself leaves no parenthesis open and closes none that it did not open, so
the one behind it closes the group in front: the expression then begins with `^`, and the
pattern matches at the cursor or not at all. A source that is no expression by itself can be
accepted nevertheless, and `a)|(?:b` is: what it matches may lie further on, and the cursor
moves as if it lay ahead.
-/
import Descent.Proofs.Pattern.Leading
import Descent.Proofs.Pattern.Settled
import Descent.Proofs.Places

set_option autoImplicit false

namespace Descent

namespace Regex

/-! ## The group behind the `^` -/

/-- What begins with `^` is anchored, whatever is behind it. So the search needs to look at one
place only. -/
theorem isAnchored_concat_textStart (r : Regex) :
    (concat [.assertion .textStart, r]).isAnchored = true := by
  show (ofItems (.assertion .textStart :: (r.items ++ []))).isAnchored = true
  cases r.items <;> rfl

/-- The characters between the `^` and the source open a group without a number. -/
theorem readOpening_unnumbered (o : Options) (cs : List Char) :
    readOpening o ('?' :: ':' :: cs) = some (.group o false none, cs) :=
  rfl

/-- Around a source that is an expression by itself, the brackets add the `^` and nothing else. -/
theorem ofSource?_anchored {source : String} {r : Regex}
    (alone : Regex.ofSource? source.toList = some r) :
    Regex.ofSource? (Pattern.anchored source) = some (concat [.assertion .textStart, r]) := by
  rw [Regex.ofSource?, Option.bind_eq_bind, Option.bind_eq_some_iff] at alone
  obtain ⟨⟨r', names, rest⟩, hgroup, h⟩ := alone
  split at h
  case h_2 => cases h
  case h_1 same =>
    cases same
    cases h
    have text :
        Pattern.anchored source = '^' :: '(' :: '?' :: ':' :: (source.toList ++ [')']) := rfl
    have length : (Pattern.anchored source).length = source.toList.length + 5 := by
      rw [text]
      simp
    -- One round goes to the `^`, and one to the group as a whole.
    have rounds : source.toList.length + 1 ≤ source.toList.length + 4 := by omega
    have inner := readGroup_append hgroup rounds []
    have whole : readGroup ((Pattern.anchored source).length + 1) { options := {} } []
        (Pattern.anchored source) =
        some (concat [.assertion .textStart, r], names, []) := by
      rw [length, text, readGroup, readGroup, readOpening_unnumbered]
      show (readGroup (source.toList.length + 4) { options := {} } []
        (source.toList ++ [')'])).bind _ = _
      rw [inner]
      rfl
    rw [Regex.ofSource?, whole]
    rfl

end Regex

/-! ## Matching at the cursor -/

namespace Pattern

/-- A source that is an expression by itself is accepted, and its pattern is anchored. -/
theorem exists_anchored_of_alone {source : String}
    (alone : (Regex.ofSource? source.toList).isSome) :
    ∃ p, ofSource? source = some p ∧ p.automaton.anchored = true := by
  obtain ⟨r, hr⟩ := Option.isSome_iff_exists.1 alone
  refine ⟨⟨source, (Regex.concat [.assertion .textStart, r]).automaton⟩, ?_, ?_⟩
  · rw [ofSource?, Regex.ofSource?_anchored hr]
    rfl
  · exact Regex.isAnchored_concat_textStart r

/-- A source that can be read alone makes a group in the pattern, so nothing of it is outside of
what is anchored. -/
theorem leads_of_alone {source : String} {p : Pattern} (accepted : ofSource? source = some p)
    (alone : (Regex.ofSource? source.toList).isSome) : p.Leads := by
  obtain ⟨q, hq, anchored⟩ := exists_anchored_of_alone alone
  obtain rfl : q = p := Option.some.inj (hq.symm.trans accepted)
  exact leads_of_anchored anchored

/-- A pattern keeps its source as it was given, as this is what failures quote. -/
theorem source_of_ofSource? {source : String} {p : Pattern} (h : ofSource? source = some p) :
    p.source = source := by
  obtain ⟨r, -, rfl⟩ := Option.map_eq_some_iff.1 h
  rfl

end Pattern

namespace State

open Text

/-- A front part of what lies ahead lies between the cursor and the cursor past it. -/
theorem slice?_advance {s : State} {cs found : List Char} (hs : s.ahead? = some cs)
    (h : found <+: cs) :
    slice? s.text s.cursor (s.advance found).cursor = some found ∧
      IsPlace (s.advance found).cursor s.text := by
  obtain ⟨rest, rfl⟩ := h
  obtain ⟨front, htext, hcursor⟩ := append_of_drop hs
  constructor
  · have cut : dropBytes s.cursor s.text = some (found ++ rest) := hs
    have moved : (s.advance found).cursor = s.cursor + byteLength found := rfl
    rw [slice?, moved, if_pos (Nat.le_add_right _ _), cut, Option.bind_some,
      Nat.add_sub_cancel_left]
    exact takeBytes_append found rest
  · refine isPlace_iff.2 ⟨front ++ found, rest, ?_, ?_⟩
    · rw [htext, List.append_assoc]
    · rw [byteLength_append, hcursor, advance]

/-- **A pattern matches right at the cursor, where its source is an expression by itself.** What it
finds is then a front part of what it is given, and the cursor moves from place to place, past
just that. A failure leaves the cursor where it was, whatever the source. -/
theorem matchPattern_at_cursor {source : String} {p : Pattern}
    (accepted : Pattern.ofSource? source = some p) :
    ((Regex.ofSource? source.toList).isSome →
      ∀ text found, p.find? text = some found → found <+: text) ∧
    ∀ s : State, match matchPattern p s with
      | .done found t =>
        t = { s with cursor := t.cursor } ∧
          ((Regex.ofSource? source.toList).isSome →
            slice? s.text s.cursor t.cursor = some found.toList ∧ IsPlace t.cursor t.text)
      | .failed t => t = s.record (.noMatch source)
      | .fault => s.ahead? = none
      | .unfinished => False := by
  refine ⟨Pattern.leads_of_alone accepted, fun s => ?_⟩
  rw [matchPattern, withAhead]
  cases hs : s.ahead? with
  | none => rfl
  | some cs =>
    dsimp only
    cases hfind : p.find? cs with
    | none =>
      show s.record (.noMatch p.source) = s.record (.noMatch source)
      rw [Pattern.source_of_ofSource? accepted]
    | some found =>
      refine ⟨rfl, fun alone => ?_⟩
      rw [String.toList_ofList]
      exact slice?_advance hs (Pattern.leads_of_alone accepted alone cs found hfind)

/-- A match behind a character of two bytes: the cursor is an offset into the bytes, and the pattern
is given the text from there on. -/
theorem matchPattern_boar :
    ∃ p, Pattern.ofSource? "b[oy]ar" = some p ∧ (Regex.ofSource? "b[oy]ar".toList).isSome ∧
      ∃ t, matchPattern p { text := "żboar".toList, cursor := 2 } = .done "boar" t ∧
        slice? "żboar".toList 2 t.cursor = some "boar".toList := by
  let p := Pattern.ofSource "b[oy]ar" (by decide)
  have accepted : Pattern.ofSource? "b[oy]ar" = some p := by decide
  have alone : (Regex.ofSource? "b[oy]ar".toList).isSome := by decide
  let s : State := { text := "żboar".toList, cursor := 2 }
  have done : matchPattern p s = .done "boar" (s.advance "boar".toList) := rfl
  have here := (matchPattern_at_cursor accepted).2 s
  rw [done] at here
  exact ⟨p, accepted, alone, _, done, (here.2 alone).1⟩

/-- **A source that closes the group around it escapes the `^`.** The cursor then moves by the
length of what was found elsewhere, past a text that was not matched or into a character. -/
theorem matchPattern_escaped :
    ∃ p, Pattern.ofSource? "a)|(?:b" = some p ∧
      matchPattern p (start "xb") = .done "b" { start "xb" with cursor := 1 } ∧
      slice? "xb".toList 0 1 = some "x".toList ∧
      matchPattern p (start "éb") = .done "b" { start "éb" with cursor := 1 } ∧
      IsPlace 1 "éb".toList = false :=
  ⟨Pattern.ofSource "a)|(?:b" (by decide), by decide, rfl, by decide, rfl, by decide⟩

end State

end Descent
