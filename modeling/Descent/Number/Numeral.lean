/-
Numerals.

A numeral is a number as it is written: a sign perhaps, ASCII digits, and for decimal
numbers a fraction and a power of ten perhaps. What is not written so has no value
here, however much it looks like a number in another script.
-/
import Descent.Number.Binary64

set_option autoImplicit false

namespace Descent.Numeral

/-- The value of a row of digits. -/
def value (digits : List Char) : Nat :=
  digits.foldl (fun n c => 10 * n + (c.toNat - '0'.toNat)) 0

/-- The value of a row of digits, at least one. -/
def natural? (cs : List Char) : Option Nat :=
  if cs.isEmpty || !cs.all Char.isDigit then none else some (value cs)

/-- Takes a sign away; says whether it was a minus. -/
def unsigned : List Char → Bool × List Char
  | '-' :: cs => (true, cs)
  | '+' :: cs => (false, cs)
  | cs => (false, cs)

/-- The value of a numeral for an integer. -/
def integer? (cs : List Char) : Option Int :=
  let (negative, digits) := unsigned cs
  (natural? digits).map fun n => if negative then -n else n

/-- The value of a numeral for a 64-bit integer that is one. -/
def int64? (cs : List Char) : Option Int64 := do
  let n ← integer? cs
  if Int64.minValue.toInt ≤ n ∧ n ≤ Int64.maxValue.toInt then some (Int64.ofInt n) else none

/-- The value of digits with a fraction perhaps. -/
def fixedPoint? (cs : List Char) : Option Decimal :=
  match cs.span (· != '.') with
  | (whole, []) => (natural? whole).map (⟨·, 0⟩)
  | (whole, _ :: fraction) => do
    let _ ← natural? whole
    let _ ← natural? fraction
    some ⟨value (whole ++ fraction), -fraction.length⟩

/-- The value of a decimal numeral, rounded to binary64. -/
def binary64? (cs : List Char) : Option Binary64 := do
  let (negative, cs) := unsigned cs
  let (digits, power) := cs.span fun c => c != 'e' && c != 'E'
  let d ← fixedPoint? digits
  let shift ←
    match power with
    | [] => some 0
    | _ :: cs => integer? cs
  some (.ofDecimal negative { d with exponent := d.exponent + shift })

/-- The value of a decimal numeral, where it is finite. -/
def finite? (cs : List Char) : Option Binary64 :=
  (binary64? cs).filter (·.isFinite)

end Descent.Numeral
