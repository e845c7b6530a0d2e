/-
What the integer token reads.

The pattern of integers takes ASCII digits only, with a sign before them perhaps
(`exists_digits_of_find?`), and it finds them whole where no further digit follows
(`integerPattern_find?_text`). The text of a 64-bit integer is such a numeral, and has that
integer as its value (`exists_digits_toString`).
-/
import Descent.Proofs.Token.Decimal
import Descent.Proofs.Number.Positional

set_option autoImplicit false

namespace Descent.Token

open Text Numeral

/-! ## The expression -/

/-- The expression that is read from the source of the pattern. -/
def integerRegex : Regex :=
  .seq signRegex (.repeated 1 none true (.set (.range '0' '9')))

/-- The source of the pattern is read once, by evaluation, and from here on there is only the
meaning of the expression. -/
theorem integerPattern_find?_eq (text : List Char) :
    integerPattern.find? text = integerRegex.first Match.accept none text :=
  Pattern.find?_ofSource _ (by decide) (by decide) (by decide) text

/-- The digits of this pattern are those of ASCII and no others, which is why each numeral that it
finds has a value. -/
theorem mem_range_digits (c : Char) : (CharSet.range '0' '9').mem c = c.isDigit :=
  rfl

/-! ## What is found -/

/-- What is found is a sign perhaps, and digits of ASCII, at least one. So it has a value, if only
an integer of any size. -/
theorem exists_digits_of_find? {text found : List Char}
    (h : integerPattern.find? text = some found) :
    ∃ (sign : Option Char) (digits rest : List Char), (∀ c ∈ sign, IsSign c) ∧ digits ≠ [] ∧
      (∀ c ∈ digits, c.isDigit = true) ∧ found = sign.toList ++ digits ∧ text = found ++ rest := by
  rw [integerPattern_find?_eq] at h
  obtain ⟨⟨_, digits, rfl, hsign, hdigits⟩, rest, rfl⟩ := Regex.spells_of_first h
  obtain ⟨sign, rfl, valid⟩ := spells_sign hsign
  obtain ⟨hlen, hdigits⟩ := Regex.spells_setRow.1 hdigits
  refine ⟨sign, digits, rest, valid, List.length_pos_iff.1 hlen, fun c hc => ?_, rfl, rfl⟩
  rw [← mem_range_digits]
  exact hdigits c hc

/-- Such a numeral is found whole where no further digit follows. Letters or a point behind it do
not matter. -/
theorem integerPattern_find?_text {sign : Option Char} (hsign : ∀ c ∈ sign, IsSign c)
    {digits rest : List Char} (hne : digits ≠ []) (hdigits : ∀ c ∈ digits, c.isDigit = true)
    (hrest : ∀ c ∈ rest.head?, c.isDigit = false) :
    integerPattern.find? (sign.toList ++ digits ++ rest) = some (sign.toList ++ digits) := by
  obtain ⟨d, ds, rfl⟩ := List.exists_cons_of_ne_nil hne
  have ended : Match.Takes Match.accept rest [] := Match.Takes.accept
  have digits : Match.Takes
      ((Regex.repeated 1 none true (.set (.range '0' '9'))).first Match.accept)
      (d :: ds ++ rest) (d :: ds ++ []) :=
    Match.Takes.setPlus (fun c hc => (mem_range_digits c).trans (hdigits c hc))
      (fun c hc => (mem_range_digits c).trans (hrest c hc)) ended
  have head : ∀ c ∈ (d :: ds ++ rest).head?, isDecimalDigit c = true := by
    intro c hc
    cases hc
    exact isDecimalDigit_of_isDigit (hdigits d List.mem_cons_self)
  have all := takes_sign hsign head digits none
  rw [integerPattern_find?_eq]
  simpa [integerRegex, Regex.first] using all

/-! ## The text of a 64-bit integer -/

/-- An integer that is one of 64 bits is the value of its numeral. -/
theorem int64?_append {sign : Option Char} (hsign : ∀ c ∈ sign, IsSign c) {digits : List Char}
    (hne : digits ≠ []) (hdigits : ∀ c ∈ digits, c.isDigit = true) {n : Int64}
    (hn : signed sign (value digits) = n.toInt) : int64? (sign.toList ++ digits) = some n := by
  have integer := integer?_append hsign hne fun c hc => isDecimalDigit_of_isDigit (hdigits c hc)
  rw [if_pos (List.all_eq_true.2 hdigits), hn] at integer
  have range : Int64.minValue.toInt ≤ n.toInt ∧ n.toInt ≤ Int64.maxValue.toInt :=
    ⟨n.minValue_le_toInt, n.toInt_le⟩
  simp only [int64?, integer, Option.bind_eq_bind, Option.bind_some]
  rw [if_pos range, Int64.ofInt_toInt]

/-- The text of an integer is a numeral for it, the least one included, which has no positive
counterpart. -/
theorem exists_digits_toString (n : Int64) : ∃ (sign : Option Char) (digits : List Char),
    (∀ c ∈ sign, IsSign c) ∧ digits ≠ [] ∧ (∀ c ∈ digits, c.isDigit = true) ∧
      signed sign (value digits) = n.toInt ∧ (toString n).toList = sign.toList ++ digits := by
  have text : toString n = toString n.toInt := rfl
  rw [text]
  cases n.toInt with
  | ofNat m =>
    refine ⟨none, Nat.toDigits 10 m, by simp, Nat.toDigits_ne_nil, isDigit_toDigits m, ?_, ?_⟩
    · rw [value_toDigits]
      rfl
    · exact String.toList_ofList
  | negSucc m =>
    refine ⟨some '-', Nat.toDigits 10 (m + 1), fun c hc => ?_, Nat.toDigits_ne_nil,
      isDigit_toDigits (m + 1), ?_, ?_⟩
    · cases hc
      exact .inr rfl
    · rw [value_toDigits]
      rfl
    · have digits : (toString (m + 1)).toList = Nat.toDigits 10 (m + 1) := String.toList_ofList
      show ("-" ++ toString (m + 1)).toList = _
      rw [String.toList_append, digits]
      rfl

end Descent.Token
