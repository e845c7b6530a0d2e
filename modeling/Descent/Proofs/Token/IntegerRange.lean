/-
The range of the integer token.

A numeral for an integer may have any number of digits, and the pattern takes all that there
are. So whether a text begins with a numeral and what that numeral is does not depend on its
value. The value decides what becomes of it: if it is one of 64 bits, that is what is read, and
otherwise the numeral is refused from behind, as it has been consumed by then.
-/
import Descent.Proofs.Reading
import Descent.Proofs.Token.Integer

set_option autoImplicit false

namespace Descent.Token

open Text Numeral

variable {Γ : Scope} {limits : Limits} {ρ : Environment Γ} {s : State}
  {cs digits rest : List Char} {sign : Option Char}

/-! ## Numerals for integers -/

/-- The text begins with a numeral for an integer: a sign perhaps, then all digits that there
are, at least one, and then the rest. -/
structure BeginsInteger (cs : List Char) (sign : Option Char) (digits rest : List Char) :
    Prop where
  text : cs = sign.toList ++ digits ++ rest
  isSign : ∀ c ∈ sign, IsSign c
  nonempty : digits ≠ []
  isDigit : ∀ c ∈ digits, c.isDigit = true
  ends : ∀ c ∈ rest.head?, c.isDigit = false

/-- The number is one of 64 bits. -/
def FitsInt64 (n : Int) : Prop := -2 ^ 63 ≤ n ∧ n ≤ 2 ^ 63 - 1

instance : DecidablePred FitsInt64 := fun _ => inferInstanceAs (Decidable (_ ∧ _))

/-- The range in powers of two is the one between the least and the greatest integer of the type. -/
theorem fitsInt64_iff {n : Int} :
    FitsInt64 n ↔ Int64.minValue.toInt ≤ n ∧ n ≤ Int64.maxValue.toInt :=
  Iff.rfl

/-- Any number of digits is converted, for natural numbers have no bound. -/
theorem integer?_of_begins (h : BeginsInteger cs sign digits rest) :
    integer? (sign.toList ++ digits) = some (signed sign (value digits)) := by
  have decimal : ∀ c ∈ digits, isDecimalDigit c = true :=
    fun c hc => isDecimalDigit_of_isDigit (h.isDigit c hc)
  rw [integer?_append h.isSign h.nonempty decimal, if_pos (List.all_eq_true.2 h.isDigit)]

/-- In the range the conversion gives the integer that has this value, the least one too, whose
value without its sign is out of range. -/
theorem int64?_of_fits (h : BeginsInteger cs sign digits rest)
    (fits : FitsInt64 (signed sign (value digits))) : ∃ m : Int64,
      m.toInt = signed sign (value digits) ∧ int64? (sign.toList ++ digits) = some m := by
  have value : (Int64.ofInt (signed sign (Numeral.value digits))).toInt = _ :=
    Int64.toInt_ofInt_of_le fits.1 (by have := fits.2; omega)
  exact ⟨_, value, int64?_append h.isSign h.nonempty h.isDigit value.symm⟩

/-- Beyond the range it gives nothing, however many digits there are. -/
theorem int64?_of_not_fits (h : BeginsInteger cs sign digits rest)
    (fits : ¬ FitsInt64 (signed sign (value digits))) :
    int64? (sign.toList ++ digits) = none := by
  rw [int64?, integer?_of_begins h]
  exact if_neg fun range => fits (fitsInt64_iff.2 range)

/-! ## What the pattern finds -/

/-- All digits are found, as a greedy repetition stops only where none follows. -/
theorem integerPattern_find?_of_begins (h : BeginsInteger cs sign digits rest) :
    integerPattern.find? cs = some (sign.toList ++ digits) := by
  rw [h.text]
  exact integerPattern_find?_text h.isSign h.nonempty h.isDigit h.ends

/-- A text that begins with some digits begins with all of them. -/
theorem integerPattern_find?_of_not_begins
    (h : ∀ sign digits rest, ¬ BeginsInteger cs sign digits rest) :
    integerPattern.find? cs = none := by
  cases hfind : integerPattern.find? cs with
  | none => rfl
  | some found =>
    obtain ⟨sign, digits, back, isSign, nonempty, isDigit, rfl, text⟩ :=
      exists_digits_of_find? hfind
    obtain ⟨more, rest, rfl, hmore, ends⟩ := exists_span Char.isDigit back
    refine absurd ?_ (h sign (digits ++ more) rest)
    refine ⟨by rw [text]; simp only [List.append_assoc], isSign, by simp [nonempty], ?_, ends⟩
    exact fun c hc => (List.mem_append.1 hc).elim (isDigit c) (hmore c)

/-! ## What is read -/

/-- The token is its pattern, and then the value of what that found. -/
theorem integer_run (limits : Limits) (ρ : Environment Γ) (s : State) :
    integer.rule.run limits ρ s = (State.matchPattern integerPattern s).andThen fun numeral t =>
      match int64? numeral.toList with
      | some n => .done n t
      | none => State.fail (.integerRange numeral) t := by
  show Run.andThen _ _ = _
  congr 1
  funext numeral t
  dsimp only
  cases int64? numeral.toList <;> rfl

/-- Where a numeral is found, it has been consumed by the time its value is looked at. So it is
refused from behind. -/
theorem integer_run_of_find? {found : List Char} (ahead : s.ahead? = some cs)
    (h : integerPattern.find? cs = some found) :
    integer.rule.run limits ρ s =
      match int64? found with
      | some n => .done n (s.advance found)
      | none => .failed ((s.advance found).record (.integerRange (String.ofList found))) := by
  rw [integer_run, State.matchPattern_of_find? ahead h, Run.andThen, String.toList_ofList]
  rfl

/-- The text of a 64-bit integer is a numeral with that value, wherever no digit follows. -/
theorem exists_begins_toString (n : Int64) {tail : List Char}
    (ends : ∀ c ∈ tail.head?, c.isDigit = false) : ∃ sign digits,
      BeginsInteger ((toString n).toList ++ tail) sign digits tail ∧
        (toString n).toList = sign.toList ++ digits ∧ signed sign (value digits) = n.toInt := by
  obtain ⟨sign, digits, isSign, nonempty, isDigit, hvalue, htext⟩ := exists_digits_toString n
  exact ⟨sign, digits, ⟨by rw [htext], isSign, nonempty, isDigit, ends⟩, htext, hvalue⟩

/-- **The integer token reads exactly the 64-bit range.** Where the text begins with a numeral, its
value is read if it is one of 64 bits, and otherwise the numeral is refused from behind. Where it
does not, no numeral is found, and nothing is consumed. So the text of a 64-bit integer is read as
that integer, and what follows it is left. -/
theorem integer_run_range (limits : Limits) (ρ : Environment Γ) {s : State} {cs : List Char}
    (ahead : s.ahead? = some cs) :
    (∀ sign digits rest, BeginsInteger cs sign digits rest →
      let numeral := sign.toList ++ digits
      let n := signed sign (Nat.ofDigitChars 10 digits 0)
      (FitsInt64 n → ∃ m : Int64, m.toInt = n ∧
        integer.rule.run limits ρ s = .done m (s.advance numeral)) ∧
      (¬ FitsInt64 n → integer.rule.run limits ρ s =
        .failed { s.advance numeral with failure := {
          kind := .refused
          reason := "Expected a 64-bit integer, but '" ++ String.ofList numeral ++
            "' is outside its representable range."
          position := (s.advance numeral).cursor } })) ∧
    ((∀ sign digits rest, ¬ BeginsInteger cs sign digits rest) →
      integer.rule.run limits ρ s = .failed { s with failure := {
        kind := .patternMismatch
        reason := "Expected pattern '[+\\-]?[0-9]+', but there was no match."
        position := s.cursor } }) ∧
    ∀ (n : Int64) (tail : List Char), (∀ c ∈ tail.head?, c.isDigit = false) →
      cs = (toString n).toList ++ tail →
        integer.rule.run limits ρ s = .done n (s.advance (toString n).toList) ∧
          (s.advance (toString n).toList).ahead? = some tail := by
  refine ⟨fun sign digits rest h => ?_, fun h => ?_, fun n tail ends text => ?_⟩
  · have run : integer.rule.run limits ρ s = _ :=
      integer_run_of_find? ahead (integerPattern_find?_of_begins h)
    constructor
    · intro fits
      obtain ⟨m, hm, hint⟩ := int64?_of_fits h fits
      rw [hint] at run
      exact ⟨m, hm, run⟩
    · intro fits
      rw [int64?_of_not_fits h fits] at run
      exact run
  · rw [integer_run, State.matchPattern_of_find?_none ahead (integerPattern_find?_of_not_begins h)]
    rfl
  · subst text
    obtain ⟨sign, digits, h, htext, hvalue⟩ := exists_begins_toString n ends
    refine ⟨?_, State.ahead?_advance ahead⟩
    rw [integer_run_of_find? ahead (integerPattern_find?_of_begins h),
      int64?_append h.isSign h.nonempty h.isDigit hvalue, htext]

/-- The least of all, behind a character of two bytes: with zeros before it, and with a digit of
another script behind it. -/
theorem integer_run_range_least :
    let s : State := { text := "ż-009223372036854775808٣".toList, cursor := 2 }
    let numeral := "-009223372036854775808".toList
    s.ahead? = some (numeral ++ ['٣']) ∧
      BeginsInteger (numeral ++ ['٣']) (some '-') "009223372036854775808".toList ['٣'] ∧
        (integer : Parser [] Int64).rule.run ⟨0, 0⟩ .undefined s =
          .done Int64.minValue (s.advance numeral) := by
  intro s numeral
  have ahead : s.ahead? = some (numeral ++ ['٣']) := by decide
  have begins : BeginsInteger (numeral ++ ['٣']) (some '-') "009223372036854775808".toList ['٣'] :=
    ⟨by decide, fun c hc => by cases hc; decide, by decide, List.all_eq_true.1 (by decide),
      fun c hc => by cases hc; decide⟩
  refine ⟨ahead, begins, ?_⟩
  obtain ⟨m, hm, run⟩ := ((integer_run_range ⟨0, 0⟩ .undefined ahead).1 _ _ _ begins).1 (by decide)
  have least : m = Int64.minValue := by
    refine Int64.toInt_inj.1 (hm.trans ?_)
    decide
  rw [least] at run
  exact run

end Descent.Token
