/-
Texts that are wanted.

A given text is read where it stands ahead. Where it does not, the failure quotes what stands there
instead, as many characters as were wanted, or says that the text ends before so many.

The cursor moves by bytes and the quote is counted in characters. By offsets, a quote is cut off
behind the character that has as many before it as were wanted, less one (`literalByOffsets`).
There is always one to take away, as the empty text stands everywhere, and behind a character is a
place. So cutting by offsets is the same as counting (`literal_eq_literalByOffsets`).
-/
import Descent.Proofs.Places

set_option autoImplicit false

namespace Descent

open Text

/-! ## Characters and their offsets -/

namespace Text

/-- The characters, each with the offset where it begins, when the first begins at `n`. -/
def withOffsets (n : Nat) : List Char → List (Nat × Char)
  | [] => []
  | c :: cs => (n, c) :: withOffsets (n + c.utf8Size) cs

/-- A character begins behind those before it, so the offset that goes with it is where a cut can be
made. -/
theorem getElem?_withOffsets (n i : Nat) (cs : List Char) :
    (withOffsets n cs)[i]? = cs[i]?.map fun c => (n + byteLength (cs.take i), c) := by
  induction cs generalizing n i with
  | nil => rfl
  | cons c cs ih =>
    cases i with
    | zero => simp [withOffsets]
    | succ i => simp [withOffsets, ih, Nat.add_assoc]

/-- One character more is as many bytes more as it has. So the end of a quote is told from the last
character of it. -/
theorem byteLength_take_succ {cs : List Char} {i : Nat} {c : Char} (h : cs[i]? = some c) :
    byteLength (cs.take (i + 1)) = byteLength (cs.take i) + c.utf8Size := by
  rw [List.take_add_one, h, byteLength_append]
  simp

end Text

namespace State

/-! ## Cutting by offsets -/

/-- Exactly the text `expected`. What is found instead is cut off by its offset; there is a fault
where the number of characters is zero and one less is wanted, or where the offset is no place. -/
def literalByOffsets (expected : String) : Behaviour String := fun s =>
  s.withAhead fun rest =>
    if expected.toList.isPrefixOf rest then
      .done expected (s.advance expected.toList)
    else
      match expected.toList.length with
      | 0 => .fault
      | before + 1 =>
        match (withOffsets 0 rest)[before]? with
        | none => fail (.otherText expected none) s
        | some (first, c) =>
          match slice? rest 0 (first + c.utf8Size) with
          | some actual => fail (.otherText expected (some (String.ofList actual))) s
          | none => .fault

variable {expected : String} {s : State} {cs : List Char}

/-- Where the text is not there, it is not empty, so there is a last character to count to. Its end
is a place, so the cut is no fault. -/
theorem literal_eq_literalByOffsets (expected : String) :
    literal expected = literalByOffsets expected := by
  funext s
  rw [literal, literalByOffsets, withAhead, withAhead]
  cases s.ahead? with
  | none => rfl
  | some cs =>
    dsimp only
    split
    · rfl
    · next differs =>
      obtain ⟨some, cut⟩ := slice?_actual (mt List.isPrefixOf_iff_prefix.2 differs)
      obtain ⟨before, count⟩ := Nat.exists_eq_add_one.2 some
      rw [count] at cut ⊢
      dsimp only
      rw [getElem?_withOffsets]
      cases last : cs[before]? with
      | none =>
        rw [if_pos (Nat.lt_succ_of_le (List.getElem?_eq_none_iff.1 last))]
        rfl
      | some c =>
        have enough : ¬ cs.length < before + 1 := by
          have := (List.getElem?_eq_some_iff.1 last).1
          omega
        rw [if_neg enough, Option.map_some]
        dsimp only
        rw [Nat.zero_add, ← byteLength_take_succ last, cut]

/-! ## What is read, and what is quoted -/

/-- What follows the text is not looked at, so a literal is found inside of a longer word as well.
-/
theorem literal_of_begins {rest : List Char} (ahead : s.ahead? = some (expected.toList ++ rest)) :
    literal expected s = .done expected (s.advance expected.toList) := by
  rw [literal, withAhead, ahead]
  exact if_pos (by simp)

/-- The cursor stays, and the failure quotes what is there instead, if there are characters enough
to compare. -/
theorem literal_of_not_begins (ahead : s.ahead? = some cs) (differs : ¬ expected.toList <+: cs) :
    literal expected s = .failed (s.record (.otherText expected
      (if cs.length < expected.toList.length then none
        else some (String.ofList (cs.take expected.toList.length))))) := by
  rw [literal, withAhead, ahead]
  dsimp only
  rw [if_neg (mt List.isPrefixOf_iff_prefix.1 differs)]
  split <;> rfl

/-- A sentence that quotes something does not say that the text ends. -/
theorem message_otherText_ne (expected actual : String) :
    (Cause.otherText expected (some actual)).message ≠
      "Expected '" ++ expected ++ "', but got EOF." := by
  intro same
  have behind : "', but got '".toList ++ (actual ++ "'.").toList = "', but got EOF.".toList := by
    replace same : "Expected '" ++ expected ++ "', but got '" ++ actual ++ "'." =
      "Expected '" ++ expected ++ "', but got EOF." := same
    rw [String.append_assoc, String.append_assoc, String.append_assoc, String.append_assoc] at same
    rw [← String.toList_append, (String.append_right_inj _).1 ((String.append_right_inj _).1 same)]
  -- Behind eleven characters that they share stands a quote in the one, and a letter in the other.
  have eleventh := congrArg (·[11]?) behind
  rw [List.getElem?_append_left (by decide)] at eleventh
  exact absurd eleventh (by decide)

/-- **A text that is wanted is read exactly, and anything else is quoted.** Where it stands ahead,
it is consumed, whatever follows. Otherwise the cursor stays, and the failure is recorded there. It
quotes as many characters as were wanted, which are others than those, and says that the text ends
just where there are fewer. With the quote cut off by its offset there is the same to be seen, and
so no fault. -/
theorem literal_exact (expected : String) {s : State} {cs : List Char}
    (ahead : s.ahead? = some cs) :
    let wanted := expected.toList
    (∀ rest, cs = wanted ++ rest →
      literal expected s = .done expected (s.advance wanted) ∧
        (s.advance wanted).ahead? = some rest) ∧
    (¬ wanted <+: cs → ∃ reason : String,
      literal expected s = .failed { s with failure := {
        kind := .literalMismatch
        reason := reason
        position := s.cursor } } ∧
      (wanted.length ≤ cs.length → cs.take wanted.length ≠ wanted ∧
        reason = "Expected '" ++ expected ++ "', but got '" ++
          String.ofList (cs.take wanted.length) ++ "'.") ∧
      (reason = "Expected '" ++ expected ++ "', but got EOF." ↔ cs.length < wanted.length)) ∧
    literalByOffsets expected s = literal expected s ∧ literalByOffsets expected s ≠ .fault := by
  intro wanted
  have same : literalByOffsets expected s = literal expected s := by
    rw [literal_eq_literalByOffsets]
  refine ⟨?_, ?_, same, ?_⟩
  · rintro rest rfl
    exact ⟨literal_of_begins ahead, ahead?_advance ahead⟩
  · intro differs
    have run := literal_of_not_begins ahead differs
    refine ⟨_, run, ?_, ?_⟩
    · intro enough
      refine ⟨fun stands => differs (stands ▸ List.take_prefix _ cs), ?_⟩
      rw [if_neg (Nat.not_lt.2 enough)]
      rfl
    · by_cases fewer : cs.length < wanted.length
      · rw [if_pos fewer]
        exact iff_of_true rfl fewer
      · rw [if_neg fewer]
        exact iff_of_false (message_otherText_ne _ _) fewer
  · rw [same]
    by_cases stands : wanted <+: cs
    · obtain ⟨rest, rfl⟩ := stands
      rw [literal_of_begins ahead]
      exact fun fault => by cases fault
    · rw [literal_of_not_begins ahead stands]
      exact fun fault => by cases fault

/-- The last of three characters differs, in its second byte. And three characters are not four,
though they take more bytes. -/
theorem literal_exact_last :
    let s : State := { text := "ałóż".toList, cursor := 1 }
    s.ahead? = some "łóż".toList ∧ ¬ "łóź".toList <+: "łóż".toList ∧
      ¬ "abcd".toList <+: "łóż".toList ∧ "łóż".toList = "łó".toList ++ "ż".toList ∧
    State.literal "łóź" s = .failed { s with failure := {
      kind := .literalMismatch
      reason := "Expected 'łóź', but got 'łóż'."
      position := 1 } } ∧
    State.literal "abcd" s = .failed { s with failure := {
      kind := .literalMismatch
      reason := "Expected 'abcd', but got EOF."
      position := 1 } } ∧
    State.literal "łó" s = .done "łó" { s with cursor := 5 } := by
  intro s
  have ahead : s.ahead? = some "łóż".toList := by decide
  have other : ¬ "łóź".toList <+: "łóż".toList := by decide
  have longer : ¬ "abcd".toList <+: "łóż".toList := by decide
  obtain ⟨reason, run, quoted, -⟩ := (literal_exact "łóź" ahead).2.1 other
  obtain ⟨reason', run', -, ends⟩ := (literal_exact "abcd" ahead).2.1 longer
  obtain ⟨read, -⟩ := (literal_exact "łó" ahead).1 "ż".toList (by decide)
  rw [(quoted (by decide)).2] at run
  rw [ends.2 (by decide)] at run'
  exact ⟨ahead, other, longer, by decide, run, run', read⟩

end State

end Descent
