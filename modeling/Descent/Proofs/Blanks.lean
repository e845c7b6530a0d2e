/-
White space around things.

Skipping white space skips all of it, so what is then ahead does not begin with any. That
tells where a token ends: no white space is a digit or a word character of any script, nor
one of the characters that notations are made of.
-/
import Descent.Text.Blank
import Descent.Text.DecimalDigit
import Descent.Text.WordChar

set_option autoImplicit false

namespace Descent.Text

/-! ## Runs of white space -/

/-- White space and nothing else. -/
def Blanks (w : List Char) : Prop :=
  ∀ c ∈ w, isBlank c = true

/-- No white space is white space of length zero, so the grammar can ask for it anywhere. -/
theorem Blanks.nil : Blanks [] :=
  fun _ hc => absurd hc List.not_mem_nil

/-- White space behind white space is white space, where two parts of a text meet. -/
theorem Blanks.append {w w' : List Char} (h : Blanks w) (h' : Blanks w') : Blanks (w ++ w') :=
  fun c hc => (List.mem_append.1 hc).elim (h c) (h' c)

/-- Only the rest counts for what is ahead once white space is skipped. -/
theorem Blanks.dropWhile_append {w : List Char} (h : Blanks w) (cs : List Char) :
    (w ++ cs).dropWhile isBlank = cs.dropWhile isBlank :=
  List.dropWhile_append_of_pos h

/-- What is skipped is white space throughout, so it may be counted to the white space that a
grammar allows there. -/
theorem blanks_takeWhile (cs : List Char) : Blanks (cs.takeWhile isBlank) :=
  fun _ hc => List.all_eq_true.1 List.all_takeWhile _ hc

/-- Nothing is skipped where another character comes first, as it does where a value or an item
begins. -/
theorem dropWhile_isBlank_of_head {cs : List Char} (h : ∀ c ∈ cs.head?, isBlank c = false) :
    cs.dropWhile isBlank = cs := by
  cases cs with
  | nil => rfl
  | cons c cs =>
    have hc : ¬ isBlank c = true := by simp [h c rfl]
    exact List.dropWhile_cons_of_neg hc

/-! ## What is no white space -/

/-- A code point in one of the ranges is one of their members. -/
theorem mem_of_inRanges {n : Nat} {rs : List (Nat × Nat)} (h : inRanges n rs = true) :
    n ∈ rs.flatMap fun (lo, hi) => List.range' lo (hi + 1 - lo) := by
  induction rs with
  | nil => cases h
  | cons r rs ih =>
    obtain ⟨lo, hi⟩ := r
    rw [inRanges] at h
    rw [List.flatMap_cons, List.mem_append]
    split at h
    · next hle =>
      left
      have := of_decide_eq_true h
      rw [List.mem_range'_1]
      omega
    · exact .inr (ih h)

/-- What holds of all code points of white space holds of each such character. -/
theorem forall_isBlank {p : Nat → Bool}
    (h : (blankRanges.flatMap fun (lo, hi) => List.range' lo (hi + 1 - lo)).all p = true)
    {c : Char} (hc : isBlank c = true) : p c.toNat = true :=
  List.all_eq_true.1 h _ (mem_of_inRanges hc)

/-- No white space is a digit of any script. There are few such characters, so it is tried for each.
-/
theorem isDecimalDigit_of_isBlank {c : Char} (hc : isBlank c = true) :
    isDecimalDigit c = false := by
  have := forall_isBlank (p := fun n => !inRanges n decimalDigitRanges) (by decide +kernel) hc
  rw [isDecimalDigit]
  simpa using this

/-- Nor is it a word character. So a word ends before white space. -/
theorem isWordChar_of_isBlank {c : Char} (hc : isBlank c = true) : isWordChar c = false := by
  have := forall_isBlank (p := fun n => !inRanges n wordCharRanges) (by decide +kernel) hc
  rw [isWordChar]
  simpa using this

end Descent.Text
