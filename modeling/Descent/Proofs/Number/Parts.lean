/-
Decimal numerals, taken apart.

A decimal numeral is a sign perhaps, a whole part without a leading zero, a fraction
perhaps, and a power of ten perhaps (`Parts`). Its value is told from these parts: the
digits of the whole part and of the fraction as one number, times a power of ten, rounded
to binary64.

Which characters are digits is left open here. A numeral in the digits of any script has
its parts, but it has a value only where all its digits are ASCII (`binary64?_text`).
-/
import Descent.Number.Numeral
import Descent.Text.DecimalDigit
import Mathlib.Data.List.TakeDrop

set_option autoImplicit false

namespace Descent.Numeral

open Text

/-! ## Parts -/

/-- A power of ten. -/
structure Power where
  /-- The letter before it. -/
  mark : Char
  sign : Option Char
  digits : List Char

/-- What a decimal numeral consists of. Where there is no fraction, it has no digits. -/
structure Parts where
  sign : Option Char := none
  whole : List Char
  fraction : List Char := []
  power : Option Power := none

/-- The character is a sign. -/
def IsSign (c : Char) : Prop := c = '+' ∨ c = '-'

instance : DecidablePred IsSign := fun _ => inferInstanceAs (Decidable (_ ∨ _))

/-- The number that the sign makes of a natural one. -/
def signed (sign : Option Char) (n : Nat) : Int :=
  if sign = some '-' then -n else n

namespace Power

/-- The power as it is written. -/
def text (w : Power) : List Char :=
  w.mark :: (w.sign.toList ++ w.digits)

/-- The exponent. -/
def exponent (w : Power) : Int :=
  signed w.sign (value w.digits)

/-- It is written as a power of ten is to be written. -/
structure Valid (isDigit : Char → Bool) (w : Power) : Prop where
  mark : w.mark = 'e' ∨ w.mark = 'E'
  sign : ∀ c ∈ w.sign, IsSign c
  nonempty : w.digits ≠ []
  digits : ∀ c ∈ w.digits, isDigit c = true

end Power

namespace Parts

/-- The digits, with a point before the fraction. -/
def mantissa (p : Parts) : List Char :=
  p.whole ++ if p.fraction = [] then [] else '.' :: p.fraction

/-- The numeral as it is written. -/
def text (p : Parts) : List Char :=
  p.sign.toList ++ (p.mantissa ++ (p.power.map Power.text).getD [])

/-- The number without its sign. -/
def decimal (p : Parts) : Decimal where
  digits := value (p.whole ++ p.fraction)
  exponent := -p.fraction.length + (p.power.map Power.exponent).getD 0

/-- The number, rounded to binary64. -/
def binary64 (p : Parts) : Binary64 :=
  .ofDecimal (p.sign == some '-') p.decimal

/-- All digits that occur. -/
def digits (p : Parts) : List Char :=
  p.whole ++ p.fraction ++ (p.power.map Power.digits).getD []

/-- It is written as a decimal numeral is to be written. -/
structure Valid (isDigit : Char → Bool) (p : Parts) : Prop where
  sign : ∀ c ∈ p.sign, IsSign c
  whole : p.whole = ['0'] ∨
    ∃ c cs, p.whole = c :: cs ∧ ('1' ≤ c ∧ c ≤ '9') ∧ ∀ d ∈ cs, isDigit d = true
  fraction : ∀ c ∈ p.fraction, isDigit c = true
  power : ∀ w ∈ p.power, w.Valid isDigit

end Parts

/-! ## Digits -/

/-- A digit that is no zero is an ASCII digit, as the first digit of a numeral has to be in any
script. -/
theorem isDigit_of_range {c : Char} (h : '1' ≤ c ∧ c ≤ '9') : c.isDigit = true := by
  have low : '0'.val ≤ c.val := UInt32.le_trans (by decide) h.1
  simp only [Char.isDigit, Bool.and_eq_true, decide_eq_true_eq]
  exact ⟨low, h.2⟩

/-- The digits of ASCII are among those of all scripts, so a valid numeral of the former is one of
the latter. -/
theorem isDecimalDigit_of_isDigit {c : Char} (h : c.isDigit = true) : isDecimalDigit c = true := by
  simp only [Char.isDigit, Bool.and_eq_true, decide_eq_true_eq] at h
  have low : 0x30 ≤ c.toNat := h.1
  have high : c.toNat ≤ 0x39 := h.2
  rw [isDecimalDigit, decimalDigitRanges, inRanges, if_pos high]
  exact decide_eq_true low

/-- A digit is none of the other characters of a numeral. -/
theorem ne_of_isDecimalDigit {c d : Char} (h : isDecimalDigit c = true)
    (hd : isDecimalDigit d = false) : c ≠ d := by
  rintro rfl
  rw [h] at hd
  cases hd

/-- Digits of other scripts are what a conversion refuses: it has a value for ASCII alone. Only the
empty text is an exception to the equation. -/
theorem natural?_eq {cs : List Char} (h : cs ≠ []) :
    natural? cs = if cs.all Char.isDigit then some (value cs) else none := by
  have nonempty : cs.isEmpty = false := by simpa using h
  rw [natural?, nonempty, Bool.false_or]
  cases cs.all Char.isDigit <;> rfl

/-- A sign is taken off if there is one. If there is none, the digit that comes first is not
mistaken for one. -/
theorem unsigned_append {sign : Option Char} (hsign : ∀ c ∈ sign, IsSign c) {cs : List Char}
    (hcs : ∀ c ∈ cs.head?, isDecimalDigit c = true) :
    unsigned (sign.toList ++ cs) = (sign == some '-', cs) := by
  cases sign with
  | some c => rcases hsign c rfl with rfl | rfl <;> rfl
  | none =>
    rw [Option.toList_none, List.nil_append]
    cases cs with
    | nil => rfl
    | cons c cs =>
      have hc : isDecimalDigit c = true := hcs c rfl
      unfold unsigned
      split
      · next heq => exact absurd (List.head_eq_of_cons_eq heq) (ne_of_isDecimalDigit hc (by decide))
      · next heq => exact absurd (List.head_eq_of_cons_eq heq) (ne_of_isDecimalDigit hc (by decide))
      · rfl

/-- So a power of ten is converted in one step, its sign and its digits together. -/
theorem integer?_append {sign : Option Char} (hsign : ∀ c ∈ sign, IsSign c) {cs : List Char}
    (hne : cs ≠ []) (hcs : ∀ c ∈ cs, isDecimalDigit c = true) :
    integer? (sign.toList ++ cs) =
      if cs.all Char.isDigit then some (signed sign (value cs)) else none := by
  have head : ∀ c ∈ cs.head?, isDecimalDigit c = true :=
    fun c hc => hcs c (List.mem_of_mem_head? hc)
  simp only [integer?, unsigned_append hsign head, natural?_eq hne]
  cases cs.all Char.isDigit with
  | false => rfl
  | true => simp [signed]

/-- What comes first in a text comes first in its front part, unless that is empty. -/
theorem mem_of_mem_head?_append {cs rest : List Char} (h : cs ≠ []) {c : Char}
    (hc : c ∈ (cs ++ rest).head?) : c ∈ cs := by
  obtain ⟨d, cs, rfl⟩ := List.exists_cons_of_ne_nil h
  cases hc
  exact List.mem_cons_self

/-- A text is cut where its kind of characters ends. The conversion cuts a numeral at its point and
at its mark in this way. -/
theorem span_append (rest : List Char) {p : Char → Bool} {cs : List Char}
    (hcs : ∀ c ∈ cs, p c = true) (hrest : ∀ c ∈ rest.head?, p c = false) :
    (cs ++ rest).span p = (cs, rest) := by
  rw [List.span_eq_takeWhile_dropWhile, List.takeWhile_append_of_pos hcs,
    List.dropWhile_append_of_pos hcs]
  cases rest with
  | nil => simp
  | cons c rest =>
    have hc : ¬ p c = true := by simp [hrest c rfl]
    rw [List.takeWhile_cons_of_neg hc, List.dropWhile_cons_of_neg hc, List.append_nil]

/-- What stands first in a text, as long as it is of one kind, and the rest. -/
theorem exists_span (p : Char → Bool) (cs : List Char) : ∃ front rest, cs = front ++ rest ∧
    (∀ c ∈ front, p c = true) ∧ ∀ c ∈ rest.head?, p c = false := by
  refine ⟨cs.takeWhile p, cs.dropWhile p, List.takeWhile_append_dropWhile.symm, ?_, fun c hc => ?_⟩
  · exact List.all_eq_true.1 List.all_takeWhile
  · have head := List.head?_dropWhile_not p cs
    rw [hc] at head
    exact head

/-! ## Values -/

namespace Parts

variable {p : Parts}

/-- The parts of the numeral in their order, put together from the right as a search reads them. -/
theorem text_eq (p : Parts) : p.text = p.sign.toList ++ (p.whole ++
    ((if p.fraction = [] then [] else '.' :: p.fraction) ++ (p.power.map Power.text).getD [])) := by
  rw [text, mantissa, List.append_assoc]

/-- Other characters may be the digits, as long as those that occur in the numeral are. -/
theorem Valid.of_text {isDigit isDigit' : Char → Bool} (h : p.Valid isDigit)
    (hd : ∀ c ∈ p.text, isDigit c = true → isDigit' c = true) : p.Valid isDigit' where
  sign := h.sign
  whole := h.whole.imp_right fun ⟨c, cs, heq, hc, hcs⟩ =>
    ⟨c, cs, heq, hc, fun d h => hd d (by simp [text_eq, heq, h]) (hcs d h)⟩
  fraction c hc := by
    refine hd c ?_ (h.fraction c hc)
    have nonempty : p.fraction ≠ [] := List.ne_nil_of_mem hc
    simp [text_eq, nonempty, hc]
  power w hw := by
    have valid := h.power w hw
    refine ⟨valid.mark, valid.sign, valid.nonempty, fun c hc => hd c ?_ (valid.digits c hc)⟩
    have hpower : p.power = some w := hw
    simp [text_eq, hpower, Power.text, hc]

/-- More characters may count as digits, whether they occur or not. -/
theorem Valid.mono {isDigit isDigit' : Char → Bool} (h : p.Valid isDigit)
    (hd : ∀ c, isDigit c = true → isDigit' c = true) : p.Valid isDigit' :=
  h.of_text fun c _ => hd c

/-- The whole part is never left out, so a sign has a digit behind it. -/
theorem Valid.whole_ne_nil {isDigit : Char → Bool} (h : p.Valid isDigit) : p.whole ≠ [] := by
  rcases h.whole with h | ⟨c, cs, h, -⟩ <;> simp [h]

/-- All of the whole part are digits, the first one as well, which is told apart only for not being
a zero. -/
theorem Valid.isDecimalDigit_whole (h : p.Valid isDecimalDigit) :
    ∀ c ∈ p.whole, isDecimalDigit c = true := by
  rcases h.whole with heq | ⟨c, cs, heq, hc, hcs⟩
  · rw [heq, List.forall_mem_singleton]
    decide
  · rw [heq]
    exact List.forall_mem_cons.2 ⟨isDecimalDigit_of_isDigit (isDigit_of_range hc), hcs⟩

/-- Up to its power, a numeral has digits and perhaps a point. -/
theorem Valid.mem_mantissa (h : p.Valid isDecimalDigit) {c : Char} (hc : c ∈ p.mantissa) :
    isDecimalDigit c = true ∨ c = '.' := by
  rcases List.mem_append.1 hc with hc | hc
  · exact .inl (h.isDecimalDigit_whole c hc)
  · split at hc
    · cases hc
    · rcases List.mem_cons.1 hc with rfl | hc
      · exact .inr rfl
      · exact .inl (h.fraction c hc)

/-- Both sides of the point are converted as one number, and the fraction is as long as the power of
ten that it takes away. -/
theorem fixedPoint?_mantissa (h : p.Valid isDecimalDigit) :
    fixedPoint? p.mantissa =
      if (p.whole ++ p.fraction).all Char.isDigit then
        some ⟨value (p.whole ++ p.fraction), -p.fraction.length⟩
      else none := by
  have whole : ∀ c ∈ p.whole, (c != '.') = true := fun c hc => by
    simpa using ne_of_isDecimalDigit (h.isDecimalDigit_whole c hc) (by decide)
  by_cases hf : p.fraction = []
  · have span := span_append [] whole (by simp)
    rw [fixedPoint?, mantissa, if_pos hf, span, hf]
    simp only [natural?_eq h.whole_ne_nil, List.append_nil]
    cases p.whole.all Char.isDigit <;> rfl
  · have span := span_append ('.' :: p.fraction) whole (by simp)
    rw [fixedPoint?, mantissa, if_neg hf, span, List.all_append]
    simp only [natural?_eq h.whole_ne_nil, natural?_eq hf]
    cases p.whole.all Char.isDigit <;> cases p.fraction.all Char.isDigit <;> rfl

/-- **A numeral has a value where its digits are ASCII**, and has none otherwise. -/
theorem binary64?_text (h : p.Valid isDecimalDigit) :
    binary64? p.text = if p.digits.all Char.isDigit then some p.binary64 else none := by
  have head : ∀ c ∈ (p.mantissa ++ (p.power.map Power.text).getD []).head?,
      isDecimalDigit c = true := by
    intro c hc
    rw [mantissa, List.append_assoc] at hc
    exact h.isDecimalDigit_whole c (mem_of_mem_head?_append h.whole_ne_nil hc)
  have mantissa : ∀ c ∈ p.mantissa, (c != 'e' && c != 'E') = true := fun c hc => by
    rcases h.mem_mantissa hc with hc | rfl
    · simpa using ⟨ne_of_isDecimalDigit hc (by decide), ne_of_isDecimalDigit hc (by decide)⟩
    · rfl
  rw [binary64?, text, unsigned_append h.sign head]
  -- The mantissa has no letter in it, so the first letter is the mark of the power.
  cases hpower : p.power with
  | none =>
    have span := span_append [] mantissa (by simp)
    simp only [Option.map_none, Option.getD_none, digits, hpower, span, fixedPoint?_mantissa h]
    rw [List.append_nil]
    cases (p.whole ++ p.fraction).all Char.isDigit with
    | false => rfl
    | true => simp [binary64, decimal, hpower]
  | some w =>
    have hw := h.power w hpower
    have mark : ∀ c ∈ w.text.head?, (c != 'e' && c != 'E') = false := fun c hc => by
      cases hc
      rcases hw.mark with h | h <;> simp [h]
    have span := span_append w.text mantissa mark
    simp only [Option.map_some, Option.getD_some, digits, hpower, span, fixedPoint?_mantissa h]
    simp only [Power.text, integer?_append hw.sign hw.nonempty hw.digits, List.all_append]
    cases p.whole.all Char.isDigit <;> cases p.fraction.all Char.isDigit <;>
      cases w.digits.all Char.isDigit <;> simp [binary64, decimal, hpower, Power.exponent]

/-- A numeral with ASCII digits is a numeral of ASCII. -/
theorem Valid.ascii (h : p.Valid isDecimalDigit) (hd : p.digits.all Char.isDigit = true) :
    p.Valid Char.isDigit := by
  rw [digits, List.all_append, List.all_append, Bool.and_eq_true, Bool.and_eq_true] at hd
  obtain ⟨⟨whole, fraction⟩, power⟩ := hd
  refine ⟨h.sign, ?_, List.all_eq_true.1 fraction, fun w hw => ?_⟩
  · refine h.whole.imp_right fun ⟨c, cs, heq, hc, _⟩ => ⟨c, cs, heq, hc, fun d hd => ?_⟩
    exact List.all_eq_true.1 whole d (heq ▸ List.mem_cons_of_mem c hd)
  · have hpower : p.power = some w := hw
    rw [hpower] at power
    have valid := h.power w hw
    exact ⟨valid.mark, valid.sign, valid.nonempty, List.all_eq_true.1 power⟩

/-- In a numeral of ASCII all digits are of ASCII, so it is never without a value. -/
theorem Valid.digits_all (h : p.Valid Char.isDigit) : p.digits.all Char.isDigit = true := by
  rw [digits, List.all_append, List.all_append, Bool.and_eq_true, Bool.and_eq_true]
  refine ⟨⟨?_, List.all_eq_true.2 h.fraction⟩, ?_⟩
  · rcases h.whole with heq | ⟨c, cs, heq, hc, hcs⟩
    · rw [heq]
      rfl
    · rw [heq, List.all_cons, isDigit_of_range hc, Bool.true_and]
      exact List.all_eq_true.2 hcs
  · cases hpower : p.power with
    | none => rfl
    | some w => exact List.all_eq_true.2 (h.power w hpower).digits

/-- A numeral of ASCII consists of signs, digits, a point and a mark. -/
theorem Valid.forall_mem_text (h : p.Valid Char.isDigit) {P : Char → Prop}
    (sign : ∀ c, IsSign c → P c) (digit : ∀ c, c.isDigit = true → P c) (point : P '.')
    (mark : ∀ c, c = 'e' ∨ c = 'E' → P c) : ∀ c ∈ p.text, P c := by
  have digits : ∀ c ∈ p.digits, P c := fun c hc => digit c (List.all_eq_true.1 h.digits_all c hc)
  rw [Parts.digits, List.append_assoc, List.forall_mem_append, List.forall_mem_append] at digits
  rw [text_eq, List.forall_mem_append, List.forall_mem_append, List.forall_mem_append]
  refine ⟨fun c hc => sign c (h.sign c (Option.mem_toList.1 hc)), digits.1, ?_, ?_⟩
  · split
    · simp
    · exact List.forall_mem_cons.2 ⟨point, digits.2.1⟩
  · cases hpower : p.power with
    | none => simp
    | some w =>
      have valid := h.power w hpower
      rw [hpower] at digits
      refine List.forall_mem_cons.2 ⟨mark _ valid.mark, List.forall_mem_append.2 ⟨?_, digits.2.2⟩⟩
      exact fun c hc => sign c (valid.sign c (Option.mem_toList.1 hc))

/-- Its value is that of its parts. Conversion never refuses a numeral that is in ASCII throughout.
-/
theorem Valid.binary64?_eq (h : p.Valid Char.isDigit) : binary64? p.text = some p.binary64 := by
  rw [binary64?_text (h.mono fun c => isDecimalDigit_of_isDigit), if_pos h.digits_all]

end Parts

end Descent.Numeral
