/-
Binary64 numbers as text.

The positional notation of a decimal number is a numeral (`ofDecimal`): its digits have no
zero before them, and it ends in zeros or has a fraction, as the power of ten is. Read again
it has the same nearest magnitude. So the text of a finite binary64 number is an ASCII numeral
with the value of that number, bit for bit (`exists_parts_of_isFinite`).
-/
import Descent.Proofs.Number.Parts
import Descent.Proofs.Number.Rounding
import Mathlib.Tactic.IntervalCases

set_option autoImplicit false

namespace Descent

/-! ## The digits of a natural number -/

namespace Numeral

/-- Zeros behind the digits multiply the number by a power of ten, as a positive exponent does. -/
theorem value_append_zeros (cs : List Char) (n : Nat) :
    value (cs ++ List.replicate n '0') = value cs * Nat.pow 10 n := by
  have split : value (cs ++ List.replicate n '0') =
      Nat.ofDigitChars 10 (List.replicate n '0') (value cs) := Nat.ofDigitChars_append 0
  rw [split, Nat.ofDigitChars_replicate_zero, Nat.mul_comm]
  rfl

/-- Zeros before the digits change nothing. They are written right behind a point where there are
more places than digits. -/
theorem value_zeros_append (n : Nat) (cs : List Char) :
    value (List.replicate n '0' ++ cs) = value cs := by
  have split : value (List.replicate n '0' ++ cs) =
      Nat.ofDigitChars 10 cs (Nat.ofDigitChars 10 (List.replicate n '0') 0) :=
    Nat.ofDigitChars_append 0
  rw [split, Nat.ofDigitChars_replicate_zero, Nat.mul_zero]
  rfl

/-- The digits of a number are read back as that number. The library knows this, and here it is said
of the value of numerals. -/
theorem value_toDigits (n : Nat) : value (Nat.toDigits 10 n) = n :=
  Nat.ofDigitChars_ten_toDigits

/-- They are digits of ASCII, so the text has a value at all. -/
theorem isDigit_toDigits (n : Nat) : ∀ c ∈ Nat.toDigits 10 n, c.isDigit = true :=
  fun _ => Nat.isDigit_of_mem_toDigits (by decide) (by decide)

/-- There is no zero before the digits of a number that is not zero. -/
theorem exists_head_toDigits {n : Nat} (h : n ≠ 0) :
    ∃ c cs, Nat.toDigits 10 n = c :: cs ∧ ('1' ≤ c ∧ c ≤ '9') := by
  induction n using Nat.base_induction 10 (by decide) with
  | single n hn =>
    refine ⟨n.digitChar, [], Nat.toDigits_of_lt_base hn, ?_⟩
    interval_cases n
    · exact absurd rfl h
    all_goals decide
  | digit n k hk hn ih =>
    obtain ⟨c, cs, heq, hc⟩ := ih (Nat.pos_iff_ne_zero.1 hn)
    refine ⟨c, cs ++ Nat.toDigits 10 k, ?_, hc⟩
    rw [← Nat.toDigits_append_toDigits (by decide) hn hk, heq, List.cons_append]

/-! ## The numeral of a decimal number -/

namespace Parts

/-- The numeral of a decimal number in positional notation. -/
def ofDecimal (sign : Option Char) (d : Decimal) : Parts :=
  let digits := Nat.toDigits 10 d.digits
  match d.exponent with
  | .ofNat e => { sign, whole := digits ++ List.replicate e '0' }
  | .negSucc e =>
    let places := e + 1
    if places < digits.length then
      { sign
        whole := digits.take (digits.length - places)
        fraction := digits.drop (digits.length - places) }
    else { sign, whole := ['0'], fraction := List.replicate (places - digits.length) '0' ++ digits }

variable {sign : Option Char} {d : Decimal} {n e : Nat}

/-- Where the places are fewer than the digits, the point stands among the digits. -/
theorem ofDecimal_of_lt (h : e + 1 < (Nat.toDigits 10 n).length) :
    ofDecimal sign ⟨n, .negSucc e⟩ =
      { sign
        whole := (Nat.toDigits 10 n).take ((Nat.toDigits 10 n).length - (e + 1))
        fraction := (Nat.toDigits 10 n).drop ((Nat.toDigits 10 n).length - (e + 1)) } :=
  if_pos h

/-- Otherwise the digits stand behind the point, with zeros before them for the places that they do
not fill. -/
theorem ofDecimal_of_not_lt (h : ¬ e + 1 < (Nat.toDigits 10 n).length) :
    ofDecimal sign ⟨n, .negSucc e⟩ =
      { sign
        whole := ['0']
        fraction := List.replicate (e + 1 - (Nat.toDigits 10 n).length) '0' ++
          Nat.toDigits 10 n } :=
  if_neg h

/-- The sign is put in front in all three forms of positional notation. -/
theorem sign_ofDecimal : (ofDecimal sign d).sign = sign := by
  obtain ⟨n, e | e⟩ := d
  · rfl
  · by_cases hplaces : e + 1 < (Nat.toDigits 10 n).length
    · rw [ofDecimal_of_lt hplaces]
    · rw [ofDecimal_of_not_lt hplaces]

/-- The numeral is written just as the number is printed, so its parts may be looked at in place of
the text. -/
theorem text_ofDecimal : (ofDecimal sign d).text = sign.toList ++ d.positional := by
  obtain ⟨n, e | e⟩ := d
  · simp [ofDecimal, text, mantissa, Decimal.positional]
  · by_cases hplaces : e + 1 < (Nat.toDigits 10 n).length
    · have fraction : (Nat.toDigits 10 n).drop ((Nat.toDigits 10 n).length - (e + 1)) ≠ [] := by
        rw [ne_eq, List.drop_eq_nil_iff]
        omega
      simp [ofDecimal_of_lt hplaces, text, mantissa, Decimal.positional, hplaces, fraction]
    · simp [ofDecimal_of_not_lt hplaces, text, mantissa, Decimal.positional, hplaces]

/-- It is written as a numeral is to be written, unless it is a zero with zeros behind it. -/
theorem valid_ofDecimal (hsign : ∀ c ∈ sign, IsSign c) (h : d.digits = 0 → d.exponent ≤ 0) :
    (ofDecimal sign d).Valid Char.isDigit := by
  obtain ⟨n, e | e⟩ := d
  · refine ⟨hsign, ?_, by simp [ofDecimal], by simp [ofDecimal]⟩
    by_cases hn : n = 0
    · have he : e = 0 := Nat.le_zero.1 (Int.ofNat_le.1 (h hn))
      rw [hn, he]
      exact .inl rfl
    · obtain ⟨c, cs, heq, hc⟩ := exists_head_toDigits hn
      have digits := isDigit_toDigits n
      rw [heq] at digits
      refine .inr ⟨c, cs ++ List.replicate e '0', by simp [ofDecimal, heq], hc, fun d hd => ?_⟩
      rcases List.mem_append.1 hd with hd | hd
      · exact digits d (List.mem_cons_of_mem c hd)
      · rw [List.eq_of_mem_replicate hd]
        rfl
  · have digits := isDigit_toDigits n
    by_cases hplaces : e + 1 < (Nat.toDigits 10 n).length
    · rw [ofDecimal_of_lt hplaces]
      refine ⟨hsign, .inr ?_, fun c hc => digits c (List.mem_of_mem_drop hc), by simp⟩
      have hn : n ≠ 0 := by
        rintro rfl
        simp at hplaces
      obtain ⟨c, cs, heq, hc⟩ := exists_head_toDigits hn
      rw [heq] at hplaces digits
      -- At least one digit is before the point, and it is the first one.
      obtain ⟨k, hk⟩ : ∃ k, (c :: cs).length - (e + 1) = k + 1 :=
        ⟨(c :: cs).length - (e + 1) - 1, by omega⟩
      refine ⟨c, cs.take k, by rw [heq, hk, List.take_succ_cons], hc, fun d hd => ?_⟩
      exact digits d (List.mem_cons_of_mem c (List.mem_of_mem_take hd))
    · rw [ofDecimal_of_not_lt hplaces]
      refine ⟨hsign, .inl rfl, fun c hc => ?_, by simp⟩
      rcases List.mem_append.1 hc with hc | hc
      · rw [List.eq_of_mem_replicate hc]
        rfl
      · exact digits c hc

/-- With places behind the point nothing is worked out: the digits are read as they are, and the
fraction is as long as the exponent says. -/
theorem decimal_ofDecimal_negSucc :
    (ofDecimal sign ⟨n, .negSucc e⟩).decimal = ⟨n, .negSucc e⟩ := by
  by_cases hplaces : e + 1 < (Nat.toDigits 10 n).length
  · have places : (Nat.toDigits 10 n).length - ((Nat.toDigits 10 n).length - (e + 1)) = e + 1 := by
      omega
    rw [ofDecimal_of_lt hplaces, decimal, List.take_append_drop, List.length_drop, places,
      value_toDigits]
    rfl
  · have places : e + 1 - (Nat.toDigits 10 n).length + (Nat.toDigits 10 n).length = e + 1 := by
      omega
    have digits := value_zeros_append (e + 1 - (Nat.toDigits 10 n).length) (Nat.toDigits 10 n)
    rw [value_toDigits] at digits
    rw [ofDecimal_of_not_lt hplaces, decimal, List.length_append, List.length_replicate, places]
    exact congrArg (Decimal.mk · (.negSucc e)) digits

/-- The numeral has the same nearest magnitude as the number, if that is finite. -/
theorem nearest_decimal_ofDecimal (h : d.nearest < Magnitude.infinity) :
    (ofDecimal sign d).decimal.nearest = d.nearest := by
  obtain ⟨n, e | e⟩ := d
  · have heq : (ofDecimal sign ⟨n, .ofNat e⟩).decimal = ⟨n * Nat.pow 10 e, .ofNat 0⟩ := by
      rw [ofDecimal, decimal, List.append_nil, value_append_zeros, value_toDigits]
      rfl
    rw [heq]
    by_cases hn : n = 0
    · rw [hn, Nat.zero_mul, Binary64.nearest_zero, Binary64.nearest_zero]
    · have nonzero : n * Nat.pow 10 e ≠ 0 :=
        Nat.mul_ne_zero hn (Nat.pos_iff_ne_zero.1 (Nat.pow_pos (by decide)))
      -- An exponent too large to be worked out would have made the number infinite.
      rw [Binary64.nearest_ofNat hn] at h
      rw [Binary64.nearest_ofNat nonzero, Binary64.nearest_ofNat hn]
      by_cases he : 400 < e
      · rw [if_pos he] at h
        exact absurd h (Nat.lt_irrefl _)
      · have whole : n * Nat.pow 10 e * Nat.pow 10 0 = n * Nat.pow 10 e := Nat.mul_one _
        rw [if_neg he, if_neg (Nat.not_lt_zero 400), whole]
  · rw [decimal_ofDecimal_negSucc]

end Parts

end Numeral

/-! ## The numeral of a binary64 number -/

namespace Binary64

variable {x : Binary64}

/-- A number is its sign and its magnitude, bit for bit. So two numbers are the same if both of
these are. -/
theorem ofMagnitude_isNegative_magnitude (x : Binary64) :
    ofMagnitude x.isNegative x.magnitude = x := by
  obtain ⟨bits⟩ := x
  have bound : bits.toNat < 2 ^ 64 := bits.toNat_lt
  have whole : (if Binary64.isNegative ⟨bits⟩ then Nat.pow 2 63 + Binary64.magnitude ⟨bits⟩
      else Binary64.magnitude ⟨bits⟩) = bits.toNat := by
    simp only [isNegative, magnitude, Nat.pow_eq, decide_eq_true_eq]
    split <;> omega
  rw [ofMagnitude, whole, UInt64.ofNat_toNat]

/-- The sign that the number is written with. -/
def sign (x : Binary64) : Option Char :=
  if x.isNegative then some '-' else none

/-- The numeral of a finite number. -/
def parts (x : Binary64) : Numeral.Parts :=
  .ofDecimal x.sign (shortest x.magnitude)

/-- What makes a number finite, as a bound on its magnitude. -/
theorem magnitude_lt (h : x.isFinite = true) : x.magnitude < Magnitude.infinity :=
  of_decide_eq_true h

/-- A finite number is printed as its sign and the shortest decimal number for its magnitude. -/
theorem text_parts (h : x.isFinite = true) : x.parts.text = x.render.toList := by
  have number : x.isNaN = false := decide_eq_false (Nat.lt_asymm (magnitude_lt h))
  rw [parts, Numeral.Parts.text_ofDecimal, render, number, sign]
  simp only [h, Bool.false_eq_true, if_false, if_true, String.toList_append, String.toList_ofList]
  cases x.isNegative <;> rfl

/-- The shortest text of a zero is a single digit. -/
theorem valid_parts (h : x.isFinite = true) : x.parts.Valid Char.isDigit := by
  refine Numeral.Parts.valid_ofDecimal (fun c hc => ?_) fun hdigits => ?_
  · rw [sign] at hc
    split at hc
    · cases hc
      exact .inr rfl
    · cases hc
  · have nearest := nearest_shortest (magnitude_lt h)
    rw [Decimal.nearest, if_pos hdigits] at nearest
    rw [← nearest, shortest_zero]

/-- **Printed and read, the number is the same**: its magnitude by the choice of the shortest text,
and its sign by the sign that was written, for zero too. -/
theorem binary64_parts (h : x.isFinite = true) : x.parts.binary64 = x := by
  have nearest := nearest_shortest (magnitude_lt h)
  have finite : (shortest x.magnitude).nearest < Magnitude.infinity := by
    rw [nearest]
    exact magnitude_lt h
  have minus : (x.sign == some '-') = x.isNegative := by
    rw [sign]
    cases x.isNegative <;> rfl
  rw [Numeral.Parts.binary64, parts, Numeral.Parts.sign_ofDecimal, minus, ofDecimal,
    Numeral.Parts.nearest_decimal_ofDecimal finite, nearest, ofMagnitude_isNegative_magnitude]

/-- **A finite number is written as a numeral with its value**, bit for bit. -/
theorem exists_parts_of_isFinite (h : x.isFinite = true) :
    ∃ p : Numeral.Parts, p.Valid Char.isDigit ∧ p.text = x.render.toList ∧ p.binary64 = x :=
  ⟨x.parts, valid_parts h, text_parts h, binary64_parts h⟩

end Binary64

end Descent
