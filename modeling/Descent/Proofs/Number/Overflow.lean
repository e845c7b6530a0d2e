/-
Where numbers become infinite.

Rounding to binary64 gives an infinity for every number that is too large, and for no other
(`Binary64.isFinite_ofDecimal_iff`). Too large are the numbers from half a step behind the
greatest finite one on: the greatest one is 2¹⁰²⁴ - 2⁹⁷¹ and the step there is 2⁹⁷¹, so that
is 2¹⁰²⁴ - 2⁹⁷⁰. The half itself goes up, as the greatest finite number has an odd fraction.

Where the number is a quotient, the step that rounding uses is told from the order of the
quotient, and three cases remain: in a lower order all is finite, in a higher one nothing is,
and in the last order with finite numbers it has to be seen what the quotient is rounded to.
Exponents far out of range, which rounding does not look into, agree with that.
-/
import Descent.Proofs.Number.Rounding
import Mathlib.Algebra.Order.Field.Rat
import Mathlib.Algebra.Order.Field.Power
import Mathlib.Tactic.Positivity
import Mathlib.Tactic.NormNum
import Mathlib.Tactic.Ring

set_option autoImplicit false

namespace Descent

/-! ## Rounding quotients -/

/-- Rounding goes to one of the two neighbours of a quotient, so it can leave an order of magnitude
by one step at most. -/
theorem roundHalfEven_bounds (num den : Nat) :
    num / den ≤ roundHalfEven num den ∧ roundHalfEven num den ≤ num / den + 1 := by
  rw [roundHalfEven]
  split
  · omega
  · split
    · omega
    · split <;> omega

/-- An even number is reached from half a step below it on. -/
theorem even_le_roundHalfEven_iff {num den q : Nat} (hden : 0 < den) (even : q % 2 = 0) :
    q ≤ roundHalfEven num den ↔ 2 * q * den ≤ 2 * num + den := by
  have whole := Nat.div_add_mod num den
  have part := Nat.mod_lt num hden
  rcases Nat.lt_trichotomy q (num / den + 1) with below | same | above
  · -- The quotient is there already.
    have steps := Nat.mul_le_mul_left den (Nat.le_of_lt_succ below)
    have rounded := (roundHalfEven_bounds num den).1
    rw [Nat.mul_comm den q] at steps
    rw [Nat.mul_assoc]
    omega
  · -- It is the next one, and a half goes up to it.
    have odd : ¬ num / den % 2 = 0 := by omega
    have steps : 2 * q * den = 2 * (den * (num / den)) + 2 * den := by
      rw [same, Nat.mul_assoc, Nat.add_mul, Nat.one_mul, Nat.mul_add, Nat.mul_comm den]
    rw [steps, roundHalfEven]
    split
    · omega
    · split
      · omega
      · omega
  · -- Rounding does not go up so far.
    have steps := Nat.mul_le_mul_left den (Nat.succ_le_of_lt above)
    rw [Nat.succ_eq_add_one, Nat.add_assoc, Nat.mul_add, Nat.mul_comm den q] at steps
    have rounded := (roundHalfEven_bounds num den).2
    rw [Nat.mul_assoc]
    omega

namespace Magnitude

/-- The step that rounding uses is the largest for which the quotient has 2⁵² steps; it is the
unit where there is none. -/
theorem quotient_bounds (num den : Nat) (hden : 0 < den) (order : Nat)
    (horder : order = Nat.log2 (num / den) - 52) :
    num < 2 ^ 53 * (den * 2 ^ order) ∧ (0 < order → 2 ^ 52 * (den * 2 ^ order) ≤ num) := by
  have split (k : Nat) : 2 ^ k * (den * 2 ^ order) = 2 ^ (k + order) * den := by
    rw [Nat.pow_add, Nat.mul_comm den, Nat.mul_assoc]
  rw [split, split, ← Nat.div_lt_iff_lt_mul hden, ← Nat.le_div_iff_mul_le hden]
  constructor
  · by_cases hzero : num / den = 0
    · rw [hzero]
      exact Nat.two_pow_pos _
    · exact (Nat.log2_lt hzero).1 (by omega)
  · intro hpos
    have hzero : num / den ≠ 0 := by
      rintro h
      rw [h] at horder
      simp at horder
      omega
    exact (Nat.le_log2 hzero).1 (by omega)

/-- A quotient is rounded past all finite values from half a step behind the greatest one on. -/
theorem infinity_le_iff {num den order last : Nat} (hden : 0 < den)
    (horder : order = Nat.log2 (num / den) - 52) (hlast : last + 1 = 2045) :
    infinity ≤ order * 2 ^ 52 + roundHalfEven num (den * 2 ^ order) ↔
      (2 ^ 54 - 1) * (den * 2 ^ last) ≤ num := by
  obtain ⟨below, above⟩ := quotient_bounds num den hden order horder
  have hstep : 0 < den * 2 ^ order := Nat.mul_pos hden (Nat.two_pow_pos order)
  have infinity_eq : infinity = 2047 * 2 ^ 52 := rfl
  rcases Nat.lt_trichotomy order 2045 with small | same | large
  · -- The greatest finite value is one step below the next order at the soonest.
    have steps : den * 2 ^ order ≤ den * 2 ^ last :=
      Nat.mul_le_mul_left den (Nat.pow_le_pow_right (by decide) (by omega))
    have quotient := (Nat.div_lt_iff_lt_mul hstep).2 below
    have rounded := (roundHalfEven_bounds num (den * 2 ^ order)).2
    generalize den * 2 ^ order = step at *
    generalize den * 2 ^ last = unit at *
    omega
  · have half : den * 2 ^ order = 2 * (den * 2 ^ last) := by
      rw [same, ← hlast, Nat.pow_succ, Nat.mul_comm (2 ^ last) 2, Nat.mul_left_comm]
    have reached : 2 ^ 53 ≤ roundHalfEven num (den * 2 ^ order) ↔ _ :=
      even_le_roundHalfEven_iff hstep (by decide)
    rw [half] at reached ⊢
    generalize den * 2 ^ last = unit at *
    omega
  · have steps : 2 ^ 2 * (den * 2 ^ last) ≤ den * 2 ^ order := by
      rw [Nat.mul_left_comm, ← Nat.pow_add]
      exact Nat.mul_le_mul_left den (Nat.pow_le_pow_right (by decide) (by omega))
    have reached := above (by omega)
    have quotient := (Nat.le_div_iff_mul_le hstep).2 reached
    have rounded := (roundHalfEven_bounds num (den * 2 ^ order)).1
    generalize den * 2 ^ order = step at *
    generalize den * 2 ^ last = unit at *
    omega

/-- The same of the value that is rounded: the greatest finite one is 2¹⁰²⁴ - 2⁹⁷¹. -/
theorem ofRatio_eq_infinity_iff {num den : Nat} (hden : 0 < den) :
    ofRatio num den = infinity ↔ (2 ^ 54 - 1) * 2 ^ 970 * den ≤ num := by
  rw [ofRatio, min_eq_right_iff]
  -- The exponents are variable here, as nothing may work out so large a power.
  obtain ⟨j, hj⟩ : ∃ j, j = 970 := ⟨970, rfl⟩
  obtain ⟨k, hk⟩ : ∃ k, k = 1074 := ⟨1074, rfl⟩
  have scale : (2 ^ 54 - 1) * (den * 2 ^ (j + k)) = (2 ^ 54 - 1) * 2 ^ j * den * Nat.pow 2 k := by
    rw [Nat.pow_add, Nat.pow_eq]
    ac_rfl
  have last : j + k + 1 = 2045 := by omega
  rw [← hj, ← hk]
  refine (infinity_le_iff hden rfl last).trans ?_
  rw [scale]
  exact Nat.mul_le_mul_right_iff (Nat.pow_pos (by decide))

/-- All that is too large is cut down to the one infinity, which therefore is the greatest
magnitude. -/
theorem ofRatio_le_infinity (num den : Nat) : ofRatio num den ≤ infinity :=
  Nat.min_le_right _ _

end Magnitude

/-! ## The bound -/

namespace Decimal

/-- The number as a rational one. -/
def toRat (d : Decimal) : ℚ :=
  d.digits * 10 ^ d.exponent

end Decimal

/-- From here on numbers are too large for a finite binary64 number: it is half a step behind the
greatest one. -/
def Binary64.overflow : ℚ :=
  2 ^ 1024 - 2 ^ 970

/-! ## Numbers beyond the bound -/

namespace Decimal

/-- The bound is a natural number, written as the greatest multiple of the last step. Comparing it
with a quotient is then a matter of products. -/
theorem overflow_eq : Binary64.overflow = ((2 ^ 54 - 1) * 2 ^ 970 : Nat) := by
  have split (j k : Nat) : (2 : ℚ) ^ (j + k) - 2 ^ k = ((2 ^ j - 1) * 2 ^ k : Nat) := by
    have one : 1 ≤ 2 ^ j := Nat.one_le_two_pow
    push_cast [one]
    ring
  exact split 54 970

/-- A bound for a rational number as one for the quotient that is rounded. With a positive exponent
its denominator is one. -/
theorem natCast_le_toRat_ofNat {bound digits e : Nat} :
    (bound : ℚ) ≤ toRat ⟨digits, .ofNat e⟩ ↔ bound * 1 ≤ digits * Nat.pow 10 e := by
  have value : toRat ⟨digits, .ofNat e⟩ = (digits * Nat.pow 10 e : Nat) := by
    simp [toRat]
  rw [value, Nat.cast_le, Nat.mul_one]

/-- With a negative exponent the denominator is a power of ten, which the bound is multiplied by. -/
theorem natCast_le_toRat_negSucc {bound digits e : Nat} :
    (bound : ℚ) ≤ toRat ⟨digits, .negSucc e⟩ ↔ bound * Nat.pow 10 (e + 1) ≤ digits := by
  have value : toRat ⟨digits, .negSucc e⟩ = digits / (10 : ℚ) ^ (e + 1) := by
    rw [toRat, zpow_negSucc, div_eq_mul_inv]
  rw [value, le_div_iff₀ (by positivity), Nat.pow_eq]
  exact_mod_cast Iff.rfl

/-- Powers of ten that are not worked out are beyond the bound. -/
theorem bound_le_ten_pow {j e : Nat} (hj : 54 + j = 1024) (h : 400 < e) :
    (2 ^ 54 - 1) * 2 ^ j ≤ Nat.pow 10 e :=
  calc (2 ^ 54 - 1) * 2 ^ j
    _ ≤ 2 ^ 54 * 2 ^ j := Nat.mul_le_mul_right _ (by decide)
    _ = 2 ^ (54 + j) := (Nat.pow_add 2 54 j).symm
    _ ≤ 2 ^ (3 * e) := Nat.pow_le_pow_right (by decide) (by omega)
    _ = (2 ^ 3) ^ e := Nat.pow_mul 2 3 e
    _ ≤ 10 ^ e := Nat.pow_le_pow_left (by decide) e

/-- Fractions that are not worked out are below one by far, so nothing is said of them that rounding
would not come to. -/
theorem lt_ten_pow {digits e : Nat} (hdigits : digits ≠ 0) (h : 400 + Nat.log2 digits < e + 1) :
    digits < Nat.pow 10 (e + 1) := by
  have two : digits < 2 ^ (e + 1) := (Nat.log2_lt hdigits).1 (by omega)
  exact Nat.lt_of_lt_of_le two (Nat.pow_le_pow_left (by decide) _)

/-- **The nearest magnitude is infinite from the bound on**, and for no smaller number. -/
theorem nearest_eq_infinity_iff (d : Decimal) :
    d.nearest = Magnitude.infinity ↔ Binary64.overflow ≤ d.toRat := by
  obtain ⟨digits, exponent⟩ := d
  obtain ⟨bound, hbound⟩ : ∃ bound, bound = (2 ^ 54 - 1) * 2 ^ 970 := ⟨_, rfl⟩
  have positive : 0 < bound := by
    rw [hbound]
    exact Nat.mul_pos (by decide) (pow_pos two_pos 970)
  have finite : (0 : Nat) ≠ Magnitude.infinity := by decide
  rw [overflow_eq, ← hbound]
  by_cases hdigits : digits = 0
  · have zero : toRat ⟨digits, exponent⟩ = 0 := by rw [hdigits]; simp [toRat]
    have not_le : ¬ (bound : ℚ) ≤ 0 := by exact_mod_cast Nat.not_le.2 positive
    rw [zero, hdigits, Binary64.nearest_zero]
    exact iff_of_false finite not_le
  · cases exponent with
    | ofNat e =>
      rw [Binary64.nearest_ofNat hdigits, natCast_le_toRat_ofNat]
      split
      · next large =>
        refine iff_of_true rfl ?_
        rw [Nat.mul_one, hbound]
        exact Nat.le_trans (bound_le_ten_pow rfl large)
          (Nat.le_mul_of_pos_left _ (Nat.pos_of_ne_zero hdigits))
      · rw [hbound]
        exact Magnitude.ofRatio_eq_infinity_iff Nat.one_pos
    | negSucc e =>
      rw [natCast_le_toRat_negSucc]
      by_cases small : 400 + Nat.log2 digits < e + 1
      · have nearest : nearest ⟨digits, .negSucc e⟩ = 0 := by
          rw [Decimal.nearest, if_neg hdigits]
          exact if_pos small
        rw [nearest]
        refine iff_of_false finite (Nat.not_le.2 ?_)
        exact Nat.lt_of_lt_of_le (lt_ten_pow hdigits small) (Nat.le_mul_of_pos_left _ positive)
      · rw [Binary64.nearest_negSucc hdigits (by omega), hbound]
        exact Magnitude.ofRatio_eq_infinity_iff (Nat.pow_pos (by decide))

/-- The same of decimal numbers, so that a sign can be put before what comes out. -/
theorem nearest_le_infinity (d : Decimal) : d.nearest ≤ Magnitude.infinity := by
  rw [Decimal.nearest]
  split
  · exact Nat.zero_le _
  · split
    · split
      · exact Nat.le_refl _
      · exact Magnitude.ofRatio_le_infinity _ _
    · split
      · exact Nat.zero_le _
      · exact Magnitude.ofRatio_le_infinity _ _

end Decimal

namespace Binary64

/-- A magnitude leaves the sign bit alone, the infinite one too, so a sign can be put to it and
taken off again. -/
theorem magnitude_ofMagnitude {negative : Bool} {m : Nat} (h : m ≤ Magnitude.infinity) :
    (ofMagnitude negative m).magnitude = m := by
  have bound : m < 2 ^ 63 := Nat.lt_of_le_of_lt h (by decide)
  rw [magnitude, ofMagnitude, UInt64.toNat_ofNat']
  cases negative <;> simp only [Nat.pow_eq] <;> simp <;> omega

/-- **The number nearest to a decimal one is finite below the bound**, and there only. -/
theorem isFinite_ofDecimal_iff (negative : Bool) (d : Decimal) :
    (ofDecimal negative d).isFinite = true ↔ d.toRat < overflow := by
  rw [isFinite, decide_eq_true_eq, ofDecimal, magnitude_ofMagnitude d.nearest_le_infinity,
    Nat.lt_iff_le_and_ne, and_iff_right d.nearest_le_infinity, ← not_le]
  exact not_congr d.nearest_eq_infinity_iff

end Binary64

end Descent
