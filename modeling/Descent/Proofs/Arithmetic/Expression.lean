/-
Arithmetic expressions as they are written.

An expression is a tree of 64-bit literals and operators. It is written without spaces. In
parentheses are the sums and differences that are operands of a product or stand to the
right of a plus or a minus, and the products that stand to the right of another operator of
their kind (`Expression.print`).

So there are three levels of writing, each built of the one above it: sums of products
of atoms, where an atom is a literal or any expression in parentheses. The operators of a
level stand in one row, and the tree is the left fold of that row. An expression can be
found on all levels up to the rank of its last operation (`Expression.level_print`).
-/
import Descent.Proofs.FoldReading

set_option autoImplicit false

namespace Descent.Arithmetic

/-! ## Expressions -/

/-- What two operands can be joined by. -/
inductive Operator where
  | plus | minus | times
deriving DecidableEq, Repr

namespace Operator

def symbol : Operator → Char
  | plus => '+'
  | minus => '-'
  | times => '*'

/-- Of two operators, the one with the higher rank binds first, or else the left one. -/
def rank : Operator → Nat
  | plus | minus => 0
  | times => 1

def apply : Operator → Int → Int → Int
  | plus, a, b => a + b
  | minus, a, b => a - b
  | times, a, b => a * b

end Operator

/-- A tree of literals and operators. -/
inductive Expression where
  | literal (n : Int64)
  | operation (o : Operator) (lhs rhs : Expression)
deriving DecidableEq, Repr

/-- The text, in parentheses where they are needed. -/
def parenthesized (needed : Bool) (text : String) : String :=
  if needed then "(" ++ text ++ ")" else text

namespace Expression

/-- The rank of the last operation. A literal is above all operations. -/
def rank : Expression → Nat
  | literal _ => 2
  | operation o _ _ => o.rank

/-- The value, as an integer of any size. -/
def value : Expression → Int
  | literal n => n.toInt
  | operation o lhs rhs => o.apply lhs.value rhs.value

/-- The expression as it is written. To the left of an operator, operations of a lower rank
need parentheses, and to the right of it, those of the same rank as well. -/
def print : Expression → String
  | literal n => toString n
  | operation o lhs rhs =>
    parenthesized (lhs.rank < o.rank) lhs.print ++ String.singleton o.symbol ++
      parenthesized (rhs.rank ≤ o.rank) rhs.print

end Expression

/-! ## Levels of writing -/

/-- A literal, or an expression in parentheses. -/
inductive Atom : List Char → Int64 → Prop
  | literal (n : Int64) : Atom (toString n).toList n
  | parenthesized (e : Expression) :
      Atom ('(' :: (e.print.toList ++ [')'])) (Int64.ofInt e.value)

/-- One of the symbols. -/
def Among (symbols : List Char) (u : List Char) (c : Char) : Prop :=
  u = [c] ∧ c ∈ symbols

/-- The product, whatever the symbol. -/
def multiply (lhs rhs : Int64) (_ : Char) : Int64 :=
  lhs * rhs

/-- The sum where the symbol is a plus, and the difference otherwise. -/
def addOrSubtract (lhs rhs : Int64) (symbol : Char) : Int64 :=
  if symbol = '+' then lhs + rhs else lhs - rhs

/-- Atoms with multiplication signs between them. -/
def Product : List Char → Int64 → Prop :=
  Chain.Folded Atom (Among ['*']) multiply

/-- Products with a plus or a minus between each two. -/
def Sum : List Char → Int64 → Prop :=
  Chain.Folded Product (Among ['+', '-']) addOrSubtract

/-- What has at least this rank. -/
def Level : Nat → List Char → Int64 → Prop
  | 0 => Sum
  | 1 => Product
  | _ => Atom

variable {u v : List Char} {a : Int64} {r r' : Nat}

/-- What binds more tightly than it has to may stand where less is asked for: an atom is a product,
and a product is a sum. -/
theorem Level.lower (h : Level r' u a) (hr : r ≤ r') : Level r u a := by
  induction hr with
  | refl => exact h
  | @step i _ ih =>
    apply ih
    match i with
    | 0 | 1 => exact .term h
    | i + 2 => exact h

/-- An operator joins what has its rank with what has a higher one. -/
theorem Level.operation (o : Operator) {x y : Int} (hu : Level o.rank u (Int64.ofInt x))
    (hv : Level (o.rank + 1) v (Int64.ofInt y)) :
    Level o.rank (u ++ ([o.symbol] ++ v)) (Int64.ofInt (o.apply x y)) := by
  cases o with
  | plus =>
    rw [Operator.apply, Int64.ofInt_add]
    exact .link hu ⟨rfl, by decide⟩ hv
  | minus =>
    rw [Operator.apply, Int64.ofInt_sub]
    exact .link hu ⟨rfl, by decide⟩ hv
  | times =>
    rw [Operator.apply, Int64.ofInt_mul]
    exact .link hu ⟨rfl, by decide⟩ hv

/-- Parentheses raise an expression to all levels. Where none are needed it has to be on the level
by itself. -/
theorem level_parenthesized {e : Expression} (needed : Bool) (hr : r ≤ 2)
    (h : needed = false → Level r e.print.toList (Int64.ofInt e.value)) :
    Level r (parenthesized needed e.print).toList (Int64.ofInt e.value) := by
  cases needed with
  | false => exact h rfl
  | true =>
    have atom : Level 2 ('(' :: (e.print.toList ++ [')'])) (Int64.ofInt e.value) := .parenthesized e
    have text : (parenthesized true e.print).toList = '(' :: (e.print.toList ++ [')']) := by
      simp [parenthesized]
    rw [text]
    exact atom.lower hr

/-- Every operator binds less tightly than parentheses do, so those can always be put around one. -/
theorem Operator.rank_lt (o : Operator) : o.rank < 2 := by
  cases o <;> decide

/-- **An expression is written on every level up to its rank**, and has its value there,
wrapped to 64 bits. -/
theorem Expression.level_print (e : Expression) (hr : r ≤ e.rank) :
    Level r e.print.toList (Int64.ofInt e.value) := by
  induction e generalizing r with
  | literal n =>
    have atom : Level 2 (toString n).toList n := .literal n
    rw [print, value, Int64.ofInt_toInt]
    exact atom.lower hr
  | operation o lhs rhs ihl ihr =>
    have rank := o.rank_lt
    -- An operand without parentheses has the rank that its side asks for.
    have left : Level o.rank (parenthesized (lhs.rank < o.rank) lhs.print).toList
        (Int64.ofInt lhs.value) := by
      refine level_parenthesized _ (by omega) fun bare => ihl ?_
      have := of_decide_eq_false bare
      omega
    have right : Level (o.rank + 1) (parenthesized (rhs.rank ≤ o.rank) rhs.print).toList
        (Int64.ofInt rhs.value) := by
      refine level_parenthesized _ (by omega) fun bare => ihr ?_
      have := of_decide_eq_false bare
      omega
    have whole := Level.operation o left right
    rw [print, value, String.toList_append, String.toList_append, String.toList_singleton,
      List.append_assoc]
    exact whole.lower hr

end Descent.Arithmetic
