/-
Magnitudes are their own nearest.

A finite binary64 magnitude has an exact value, and rounding that value gives the magnitude
back (`nearest_exactDecimal`): it is a whole number of steps at just the step of the grid
that rounding uses for it. So among the decimal numbers that are tried for the shortest text
there always is one that reads back, and the text chosen reads back (`nearest_shortest`).
-/
import Descent.Number.Binary64
import Mathlib.Algebra.Group.Nat.Defs

set_option autoImplicit false

namespace Descent

/-! ## Rounding what is exact -/

/-- A whole number of steps is not rounded at all, so no tie has to be looked at. -/
theorem roundHalfEven_mul {q den : Nat} (h : 0 < den) : roundHalfEven (q * den) den = q := by
  rw [roundHalfEven, Nat.mul_div_cancel q h, Nat.mul_mod_left]
  exact if_pos h

namespace Magnitude

/-- Below 2⁵² the step of the grid is the unit. -/
theorem units_of_lt {n : Nat} (h : n < 2 ^ 52) : units n = n := by
  have order : n / Nat.pow 2 52 = 0 := Nat.div_eq_of_lt h
  rw [units, order]
  exact Nat.mod_eq_of_lt h

/-- From there on the value is between 2⁵² and 2⁵³ steps. -/
theorem units_add (order fraction : Nat) (h : fraction < 2 ^ 52) :
    units ((order + 1) * 2 ^ 52 + fraction) = (2 ^ 52 + fraction) * 2 ^ order := by
  have div : ((order + 1) * 2 ^ 52 + fraction) / Nat.pow 2 52 = order + 1 := by
    simp only [Nat.pow_eq]
    omega
  have mod : ((order + 1) * 2 ^ 52 + fraction) % Nat.pow 2 52 = fraction := by
    simp only [Nat.pow_eq]
    omega
  rw [units, div, mod]
  rfl

/-- The step that rounding uses for the value of a magnitude is the step of its order. -/
theorem log2_units_add (order fraction : Nat) (h : fraction < 2 ^ 52) :
    Nat.log2 ((2 ^ 52 + fraction) * 2 ^ order) = 52 + order := by
  have pos : 0 < 2 ^ order := Nat.two_pow_pos order
  have nonzero : (2 ^ 52 + fraction) * 2 ^ order ≠ 0 := Nat.mul_ne_zero (by omega) (by omega)
  rw [Nat.log2_eq_iff nonzero]
  constructor
  · rw [Nat.pow_add]
    exact Nat.mul_le_mul_right _ (Nat.le_add_right _ _)
  · have split : 2 ^ (52 + order + 1) = 2 ^ 53 * 2 ^ order := by
      rw [← Nat.pow_add]
      congr 1
      omega
    rw [split]
    exact Nat.mul_lt_mul_of_pos_right (by omega) pos

/-- A finite magnitude is the nearest to its own value, given as any quotient. -/
theorem ofRatio_units {n : Nat} (h : n < infinity) {num den : Nat} (hden : 0 < den)
    (hnum : num * Nat.pow 2 1074 = units n * den) : ofRatio num den = n := by
  have quotient : num * Nat.pow 2 1074 / den = units n := by
    rw [hnum, Nat.mul_div_cancel _ hden]
  have rounded (order q : Nat) (hq : units n = q * 2 ^ order) :
      roundHalfEven (num * Nat.pow 2 1074) (den * Nat.pow 2 order) = q := by
    have := roundHalfEven_mul (q := q) (Nat.mul_pos hden (Nat.two_pow_pos order))
    rw [hnum, hq, Nat.mul_assoc, Nat.mul_comm (2 ^ order)]
    exact this
  rw [ofRatio]
  simp only [quotient]
  -- In the first two orders the step is one unit; from there on each order has its own.
  by_cases hn : n < 2 ^ 52
  · have order : Nat.log2 (units n) - 52 = 0 := by
      rw [units_of_lt hn]
      by_cases hzero : n = 0
      · rw [hzero]
        rfl
      · have := (Nat.log2_lt hzero).2 hn
        omega
    rw [order, rounded 0 n (by rw [units_of_lt hn, Nat.pow_zero, Nat.mul_one]), Nat.zero_mul,
      Nat.zero_add]
    exact Nat.min_eq_left (Nat.le_of_lt h)
  · obtain ⟨order, fraction, hfraction, rfl⟩ :
        ∃ order fraction, fraction < 2 ^ 52 ∧ n = (order + 1) * 2 ^ 52 + fraction :=
      ⟨n / 2 ^ 52 - 1, n % 2 ^ 52, by omega, by omega⟩
    have value := units_add order fraction hfraction
    have step : Nat.log2 (units ((order + 1) * 2 ^ 52 + fraction)) - 52 = order := by
      rw [value, log2_units_add order fraction hfraction]
      omega
    rw [step, rounded order _ value]
    have whole : order * Nat.pow 2 52 + (2 ^ 52 + fraction) = (order + 1) * 2 ^ 52 + fraction := by
      simp only [Nat.pow_eq]
      omega
    rw [whole]
    exact Nat.min_eq_left (Nat.le_of_lt h)

/-- Only the magnitude zero has the value zero. All other values can be written without a leading
zero. -/
theorem units_ne_zero {n : Nat} (h : n ≠ 0) : units n ≠ 0 := by
  by_cases hn : n < 2 ^ 52
  · rw [units_of_lt hn]
    exact h
  · obtain ⟨order, fraction, hfraction, rfl⟩ :
        ∃ order fraction, fraction < 2 ^ 52 ∧ n = (order + 1) * 2 ^ 52 + fraction :=
      ⟨n / 2 ^ 52 - 1, n % 2 ^ 52, by omega, by omega⟩
    rw [units_add order fraction hfraction]
    exact Nat.mul_ne_zero (by omega) (Nat.pos_iff_ne_zero.1 (Nat.two_pow_pos order))

end Magnitude

/-! ## The text of a magnitude -/

namespace Binary64

open Magnitude

/-- Zero is rounded to itself whatever its power of ten is, and without working out that power. -/
theorem nearest_zero (exponent : Int) : (Decimal.mk 0 exponent).nearest = 0 :=
  if_pos rfl

/-- The equation for a number with zeros behind its digits, far too large ones included. -/
theorem nearest_ofNat {digits : Nat} (hdigits : digits ≠ 0) (e : Nat) :
    (Decimal.mk digits (.ofNat e)).nearest =
      if 400 < e then Magnitude.infinity else Magnitude.ofRatio (digits * Nat.pow 10 e) 1 := by
  rw [Decimal.nearest, if_neg hdigits]

/-- A fraction that is not far out of range is worked out. -/
theorem nearest_negSucc {digits e : Nat} (hdigits : digits ≠ 0) (he : e < 400 + Nat.log2 digits) :
    (Decimal.mk digits (.negSucc e)).nearest = Magnitude.ofRatio digits (Nat.pow 10 (e + 1)) := by
  rw [Decimal.nearest, if_neg hdigits]
  exact if_neg (Nat.not_lt.2 he)

/-- A row of fives outgrows as many twos, so the digits of an exact value are enough to keep it from
being taken for too small. -/
theorem two_pow_le_mul_five_pow {n : Nat} (h : n ≠ 0) (k : Nat) : 2 ^ k ≤ n * Nat.pow 5 k :=
  Nat.le_trans (Nat.pow_le_pow_left (by omega) k)
    (Nat.le_mul_of_pos_left _ (Nat.pos_iff_ne_zero.2 h))

/-- The digits of an exact value are zero only where the magnitude is. -/
theorem mul_five_pow_ne_zero {n : Nat} (h : n ≠ 0) (k : Nat) : n * Nat.pow 5 k ≠ 0 :=
  Nat.mul_ne_zero h (Nat.pos_iff_ne_zero.1 (Nat.pow_pos (by omega)))

/-- Tens are fives times twos. So a number of units can be written with a power of ten in place of
the power of two. -/
theorem five_pow_mul_two_pow (k : Nat) : Nat.pow 5 k * Nat.pow 2 k = Nat.pow 10 k := by
  rw [Nat.pow_eq, Nat.pow_eq, Nat.pow_eq, ← Nat.mul_pow]

/-- The value of a finite magnitude reads back, when it is written with as many places as its
unit has. -/
theorem nearest_units {m places : Nat} (h : m < infinity) (hplaces : places + 1 = 1074) :
    (Decimal.mk (units m * Nat.pow 5 (places + 1)) (.negSucc places)).nearest = m := by
  by_cases hm : m = 0
  · have digits : units m * Nat.pow 5 (places + 1) = 0 :=
      Nat.mul_eq_zero.2 (.inl (by rw [units_of_lt (by omega), hm]))
    rw [digits, nearest_zero, hm]
  · -- The number of digits is variable here, as nothing may work out so large a power.
    have nonzero := mul_five_pow_ne_zero (units_ne_zero hm) (places + 1)
    have log := (Nat.le_log2 nonzero).2 (two_pow_le_mul_five_pow (units_ne_zero hm) (places + 1))
    rw [nearest_negSucc nonzero (by omega)]
    refine ofRatio_units h (Nat.pow_pos (by omega)) ?_
    rw [Nat.mul_assoc, ← hplaces, five_pow_mul_two_pow]

/-- The exact value is the number of units, times as many fives as a unit has places. The number of
places is variable, so that the power of five stays as it is written. -/
theorem exactDecimal_eq {places : Nat} (hplaces : places + 1 = 1074) (m : Nat) :
    exactDecimal m = ⟨units m * Nat.pow 5 (places + 1), .negSucc places⟩ := by
  have exponent : Int.negSucc places = -1074 := by omega
  rw [exponent, exactDecimal, ← hplaces]

/-- The exact value of a finite magnitude reads back, so the search for a shorter text always has
this one to fall back on. -/
theorem nearest_exactDecimal {m : Nat} (h : m < infinity) : (exactDecimal m).nearest = m := by
  obtain ⟨places, hplaces⟩ : ∃ places, places + 1 = 1074 := ⟨1073, rfl⟩
  rw [exactDecimal_eq hplaces]
  exact nearest_units h hplaces

/-- A candidate is given only after it has been read back, whichever of the two neighbours it is. -/
theorem nearest_of_closer? {m dropped : Nat} {d exact below above : Decimal}
    (h : closer? m dropped exact below above = some d) : d.nearest = m := by
  rw [closer?] at h
  split at h
  · next hbelow habove =>
    split at h
    · cases h
      exact eq_of_beq hbelow
    · cases h
      exact eq_of_beq habove
  · next hbelow _ =>
    cases h
    exact eq_of_beq hbelow
  · next habove =>
    cases h
    exact eq_of_beq habove
  · cases h

/-- The value zero has no digits to drop, so the search for the shortest text sets it apart. -/
theorem digits_exactDecimal_zero : (exactDecimal 0).digits = 0 :=
  Nat.mul_eq_zero.2 (.inl (units_of_lt (by decide)))

/-- So zero is written as a single digit, with no search at all. -/
theorem shortest_zero : shortest 0 = ⟨0, 0⟩ := by
  unfold shortest
  exact if_pos digits_exactDecimal_zero

/-- **The shortest text reads back.** Either a candidate was found, and those have been read back,
or the exact value is written out. -/
theorem nearest_shortest {m : Nat} (h : m < infinity) : (shortest m).nearest = m := by
  unfold shortest
  dsimp only
  split
  · next hdigits =>
    rw [nearest_zero]
    have exact := nearest_exactDecimal h
    rw [Decimal.nearest, if_pos hdigits] at exact
    exact exact
  · generalize hfound : (List.range _).findSome? _ = found
    cases found with
    | none => exact nearest_exactDecimal h
    | some d =>
      obtain ⟨kept, -, hd⟩ := List.exists_of_findSome?_eq_some hfound
      exact nearest_of_closer? hd

end Binary64

end Descent
