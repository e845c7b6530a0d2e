/-
Decimal numbers and their nearest binary64 magnitudes.

A decimal number without sign is a natural number of digits and a power of ten. The
binary64 format has a grid of values that is finest near zero, where its step is
2⁻¹⁰⁷⁴, and whose step doubles from one binary order to the next once 2⁵² steps fit
below. Counted from zero upwards, the values of the grid are numbered by their own bit
patterns, so rounding to the grid is rounding a quotient to the nearest integer, with a
half going to the even neighbour, at the step that belongs to its order.
-/

set_option autoImplicit false

namespace Descent

/-- The number `digits · 10 ^ exponent`. -/
structure Decimal where
  digits : Nat
  exponent : Int
deriving DecidableEq, Repr

/-- The quotient, rounded to the nearest integer; a half goes to the even one. -/
def roundHalfEven (num den : Nat) : Nat :=
  let q := num / den
  let r := num % den
  if 2 * r < den then q
  else if den < 2 * r then q + 1
  else if q % 2 = 0 then q
  else q + 1

namespace Magnitude

/-- The number of the value beyond all finite ones. -/
def infinity : Nat := 2047 * Nat.pow 2 52

/-- The number of the value nearest to the quotient. The step of the grid there is
`2 ^ order` times the smallest one. -/
def ofRatio (num den : Nat) : Nat :=
  let num := num * Nat.pow 2 1074
  let order := Nat.log2 (num / den) - 52
  min (order * Nat.pow 2 52 + roundHalfEven num (den * Nat.pow 2 order)) infinity

/-- The value with this number, in units of 2⁻¹⁰⁷⁴. -/
def units (n : Nat) : Nat :=
  let order := n / Nat.pow 2 52
  let fraction := n % Nat.pow 2 52
  if order = 0 then fraction else (Nat.pow 2 52 + fraction) * Nat.pow 2 (order - 1)

end Magnitude

namespace Decimal

/-- The number of the binary64 magnitude nearest to the decimal number. A power of ten
that is far out of the range of the format is not worked out. -/
def nearest (d : Decimal) : Nat :=
  if d.digits = 0 then 0
  else
    match d.exponent with
    | .ofNat e =>
      if 400 < e then Magnitude.infinity else Magnitude.ofRatio (d.digits * Nat.pow 10 e) 1
    | .negSucc e =>
      if 400 + Nat.log2 d.digits < e + 1 then 0
      else Magnitude.ofRatio d.digits (Nat.pow 10 (e + 1))

/-- The number in positional notation, with a point only where digits follow it. -/
def positional (d : Decimal) : List Char :=
  let digits := Nat.toDigits 10 d.digits
  match d.exponent with
  | .ofNat e => digits ++ List.replicate e '0'
  | .negSucc e =>
    let places := e + 1
    if places < digits.length then
      digits.take (digits.length - places) ++ '.' :: digits.drop (digits.length - places)
    else
      '0' :: '.' :: List.replicate (places - digits.length) '0' ++ digits

end Decimal

end Descent
