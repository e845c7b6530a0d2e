/-
Binary64 numbers.

A binary64 number is its 64 bits: a sign, and a magnitude that is finite, infinite or
not a number. It is written in positional decimal notation, without an exponent, with
the fewest digits that read back as the same number; of two such texts the nearer one,
and of two that are equally near the greater.
-/
import Descent.Number.Decimal

set_option autoImplicit false

namespace Descent

/-- A binary64 number. -/
structure Binary64 where
  bits : UInt64
deriving DecidableEq, Repr

namespace Binary64

/-! ## Parts -/

/-- The sign bit is set. -/
def isNegative (x : Binary64) : Bool :=
  Nat.pow 2 63 ≤ x.bits.toNat

/-- The number without its sign. -/
def magnitude (x : Binary64) : Nat :=
  x.bits.toNat % Nat.pow 2 63

/-- Neither infinite nor outside the numbers. -/
def isFinite (x : Binary64) : Bool :=
  x.magnitude < Magnitude.infinity

/-- The bits denote no number, not even an infinite one. -/
def isNaN (x : Binary64) : Bool :=
  Magnitude.infinity < x.magnitude

/-- The number with this sign and this magnitude. -/
def ofMagnitude (negative : Bool) (magnitude : Nat) : Binary64 :=
  ⟨UInt64.ofNat (if negative then Nat.pow 2 63 + magnitude else magnitude)⟩

/-- The number nearest to a decimal one; an infinity where that is too large. -/
def ofDecimal (negative : Bool) (d : Decimal) : Binary64 :=
  ofMagnitude negative d.nearest

/-- The number nearest to an integer. -/
def ofInt (n : Int) : Binary64 :=
  ofDecimal (n < 0) ⟨n.natAbs, 0⟩

/-- Equality of what the bits denote: both zeros are equal, and no number that is not a
number equals any. -/
def numericallyEqual (x y : Binary64) : Bool :=
  !x.isNaN && !y.isNaN && (x.bits == y.bits || (x.magnitude == 0 && y.magnitude == 0))

/-! ## Text -/

/-- The exact value of a finite magnitude. -/
def exactDecimal (magnitude : Nat) : Decimal where
  digits := Magnitude.units magnitude * Nat.pow 5 1074
  exponent := -1074

/-- The two neighbours of a decimal number that drop its last `dropped` digits, of which
there are `length`. Rounding up may need one place more. -/
def neighbours (d : Decimal) (length dropped : Nat) : Decimal × Decimal :=
  let below := d.digits / Nat.pow 10 dropped
  let above : Decimal :=
    if below + 1 = Nat.pow 10 (length - dropped) then
      ⟨Nat.pow 10 (length - dropped - 1), d.exponent + dropped + 1⟩
    else ⟨below + 1, d.exponent + dropped⟩
  (⟨below, d.exponent + dropped⟩, above)

/-- Of the two neighbours of an exact value the one that reads back as the magnitude; the
nearer, where both do. -/
def closer? (magnitude dropped : Nat) (exact below above : Decimal) : Option Decimal :=
  match below.nearest == magnitude, above.nearest == magnitude with
  | true, true =>
    if 2 * (exact.digits % Nat.pow 10 dropped) < Nat.pow 10 dropped then some below
    else some above
  | true, false => some below
  | false, true => some above
  | false, false => none

/-- The number with so many digits fewer than the exact value that reads back as the
magnitude. -/
def readsBack? (magnitude length dropped : Nat) : Option Decimal :=
  let exact := exactDecimal magnitude
  let (below, above) := neighbours exact length dropped
  closer? magnitude dropped exact below above

/-- The decimal number with the fewest digits that reads back as the magnitude. -/
def shortest (magnitude : Nat) : Decimal :=
  let exact := exactDecimal magnitude
  let length := (Nat.toDigits 10 exact.digits).length
  if exact.digits = 0 then ⟨0, 0⟩
  else
    ((List.range length).findSome? fun kept =>
      readsBack? magnitude length (length - (kept + 1))).getD exact

/-- The number as text. -/
def render (x : Binary64) : String :=
  if x.isNaN then "NaN"
  else
    let sign := if x.isNegative then "-" else ""
    if x.isFinite then sign ++ String.ofList (shortest x.magnitude).positional else sign ++ "inf"

end Binary64

end Descent
