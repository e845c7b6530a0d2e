/-
The range of the decimal token.

A numeral that the pattern has found is refused for one reason in words, that it is outside the
range of decimal numbers. That is the reason where the numeral is written in ASCII: then it has a
value, and it is refused just where its value is too large for a finite number. But the pattern
takes the digits of any script. A numeral with one of those has no value at all, and it is refused
in the same words, whatever the number that it begins with.
-/
import Descent.Proofs.Token.LongestNumeral
import Descent.Proofs.Number.Overflow

set_option autoImplicit false

namespace Descent

open Text Numeral

/-! ## Numerals with a value -/

namespace Numeral.Parts

open Token

variable {p : Parts}

/-- Whatever else a numeral of ASCII is made of, its signs, its point and its mark are no digits in
any script. -/
theorem Valid.asciiDigits (h : p.Valid Char.isDigit) : AsciiDigits p.text := by
  refine h.forall_mem_text ?_ (fun c hc _ => hc) (by decide) ?_
  · rintro c (rfl | rfl) <;> decide
  · rintro c (rfl | rfl) <;> decide

/-- A numeral in the digits of any script has a value just where all of them are ASCII. -/
theorem Valid.ascii_iff (h : p.Valid isDecimalDigit) :
    p.Valid Char.isDigit ↔ AsciiDigits p.text :=
  ⟨Valid.asciiDigits, h.of_text⟩

end Numeral.Parts

/-! ## What is refused -/

namespace Token

variable {Γ : Scope}

/-- **A numeral that has been found is refused for its range where it is out of range or not
ASCII.** One in ASCII has a value, and is refused just where the number is too large for a finite
one. One with a digit of another script has no value, and is refused in the same words. -/
theorem decimal_run_range (limits : Limits) (ρ : Environment Γ) {s : State} {cs found : List Char}
    (ahead : s.ahead? = some cs) (hfind : decimalPattern.find? cs = some found) :
    let refused : Run Binary64 := .failed { s.advance found with failure := {
      kind := .refused
      reason := "Expected a decimal number, but '" ++ String.ofList found ++
        "' is outside its representable range."
      position := (s.advance found).cursor } }
    (AsciiDigits found → ∃ p : Parts, p.Valid Char.isDigit ∧ p.text = found ∧
      binary64? found = some p.binary64 ∧
      (p.decimal.toRat < Binary64.overflow →
        decimal.rule.run limits ρ s = .done p.binary64 (s.advance found)) ∧
      (Binary64.overflow ≤ p.decimal.toRat → decimal.rule.run limits ρ s = refused)) ∧
    (¬ AsciiDigits found → binary64? found = none ∧ decimal.rule.run limits ρ s = refused) := by
  intro refused
  obtain ⟨p, _, valid, rfl, -⟩ := exists_parts_of_find? hfind
  have run : decimal.rule.run limits ρ s = _ := decimal_run_of_find? ahead hfind
  constructor
  · intro ascii
    have valid := valid.ascii_iff.2 ascii
    have value := valid.binary64?_eq
    have finite : p.binary64.isFinite = true ↔ p.decimal.toRat < Binary64.overflow :=
      Binary64.isFinite_ofDecimal_iff _ _
    refine ⟨p, valid, rfl, value, fun below => ?_, fun above => ?_⟩
    · rwa [finite?, value, Option.filter_some_pos (finite.2 below)] at run
    · have infinite : p.binary64.isFinite = false :=
        Bool.eq_false_iff.2 (finite.not.2 (not_lt.2 above))
      rwa [finite?, value, Option.filter_some_neg infinite] at run
  · intro other
    have digits : ¬ p.digits.all Char.isDigit = true :=
      fun all => other (valid.ascii all).asciiDigits
    have value := Parts.binary64?_text valid
    rw [if_neg digits] at value
    rw [finite?, value] at run
    exact ⟨value, run⟩

/-- A numeral that is out of range is found up to the letter behind it, and refused. -/
theorem decimal_run_range_beyond :
    let s : State := .start "-2e308m"
    s.ahead? = some "-2e308m".toList ∧
      decimalPattern.find? "-2e308m".toList = some "-2e308".toList ∧
      AsciiDigits "-2e308".toList ∧
      (∃ p : Parts, p.Valid Char.isDigit ∧ p.text = "-2e308".toList ∧
        Binary64.overflow ≤ p.decimal.toRat) ∧
      (decimal : Parser [] Binary64).rule.run ⟨0, 0⟩ .undefined s =
        .failed { s with cursor := 6, failure := {
          kind := .refused
          reason := "Expected a decimal number, but '-2e308' is outside its representable range."
          position := 6 } } := by
  intro s
  have ahead : s.ahead? = some "-2e308m".toList := by decide
  have valid :
      Parts.Valid isDecimalDigit ⟨some '-', ['2'], [], some ⟨'e', none, ['3', '0', '8']⟩⟩ := by
    refine ⟨fun c hc => by cases hc; decide, .inr ⟨'2', [], rfl, by decide, by simp⟩, by simp,
      fun w hw => ?_⟩
    cases hw
    exact ⟨.inl rfl, by simp, by decide, List.all_eq_true.1 (by decide)⟩
  have hfind : decimalPattern.find? "-2e308m".toList = some "-2e308".toList :=
    decimalPattern_find?_text valid (show EndsNumeral ['m'] from fun c hc => by cases hc; decide)
  have ascii : AsciiDigits "-2e308".toList := by decide
  obtain ⟨p, hp, htext, value, -, refused⟩ :=
    (decimal_run_range ⟨0, 0⟩ (.undefined : Environment []) ahead hfind).1 ascii
  have infinite : ¬ p.binary64.isFinite = true := by
    have computed : binary64? "-2e308".toList = some ⟨0xfff0000000000000⟩ := by decide +kernel
    rw [Option.some.inj (value.symm.trans computed)]
    decide
  have beyond : Binary64.overflow ≤ p.decimal.toRat :=
    not_lt.1 fun below => infinite ((Binary64.isFinite_ofDecimal_iff _ _).2 below)
  exact ⟨ahead, hfind, ascii, ⟨p, hp, htext, beyond⟩, refused beyond⟩

/-- A digit of another script behind a small number is taken with it, and the whole is refused as
if the number were out of range. In ASCII it is no numeral, and the number in front of it is the
longest one. -/
theorem decimal_refuses_other_digits :
    let s : State := .start "1٣"
    decimalPattern.find? "1٣".toList = some "1٣".toList ∧
      (decimal : Parser [] Binary64).rule.run ⟨0, 0⟩ .undefined s =
        .failed { s with cursor := 3, failure := {
          kind := .refused
          reason := "Expected a decimal number, but '1٣' is outside its representable range."
          position := 3 } } ∧
      ¬ IsDecimal Char.isDigit "1٣".toList ∧
      LongestPrefix (IsDecimal Char.isDigit) "1٣".toList "1".toList := by
  intro s
  have valid : Parts.Valid isDecimalDigit ⟨none, ['1', '٣'], [], none⟩ :=
    ⟨by simp, .inr ⟨'1', ['٣'], rfl, by decide, List.all_eq_true.1 (by decide)⟩, by simp, by simp⟩
  have hfind : decimalPattern.find? "1٣".toList = some "1٣".toList :=
    decimalPattern_find?_text valid (show EndsNumeral [] from fun c hc => by cases hc)
  have ahead : s.ahead? = some "1٣".toList := by decide
  have run : (decimal : Parser [] Binary64).rule.run ⟨0, 0⟩ .undefined s = _ :=
    decimal_run_of_find? ahead hfind
  have none : finite? "1٣".toList = none := by decide
  have other : ¬ IsDecimal Char.isDigit "1٣".toList := by
    rintro ⟨p, hp, htext⟩
    have ascii := hp.asciiDigits
    rw [htext] at ascii
    exact absurd ascii (by decide)
  have one : IsDecimal Char.isDigit "1".toList :=
    ⟨⟨Option.none, ['1'], [], Option.none⟩,
      ⟨by simp, .inr ⟨'1', [], rfl, by decide, by simp⟩, by simp, by simp⟩, rfl⟩
  rw [none] at run
  refine ⟨hfind, run, other, ⟨['٣'], rfl⟩, one, fun more begins holds => ?_⟩
  -- A longer one would be the whole text.
  by_contra longer
  have whole : more = "1٣".toList := begins.eq_of_length_le (Nat.succ_le_of_lt (not_le.1 longer))
  exact other (whole ▸ holds)

end Token

end Descent
