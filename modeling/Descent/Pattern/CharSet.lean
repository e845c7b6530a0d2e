/-
Sets of characters.

A pattern reads one character at a time, and each time asks whether the character
belongs to a set. The sets are kept as they were written, as ranges, named classes,
unions and complements; membership is a function on that form.

Two forms can denote one set. To find out, it is enough to ask at the edges of both,
the code points at which a range begins or has just ended: from one edge to the next
nothing changes.
-/
import Descent.Text.Blank
import Descent.Text.DecimalDigit
import Descent.Text.WordChar
import Descent.Text.CaseFolding

set_option autoImplicit false

namespace Descent

open Text

/-- A set of characters. -/
inductive CharSet where
  /-- No character. -/
  | none
  /-- The characters from `first` to `last`. -/
  | range (first last : Char)
  /-- The decimal digits of all scripts. -/
  | digit
  /-- White space. -/
  | blank
  /-- Word characters. -/
  | word
  | union (s t : CharSet)
  | compl (s : CharSet)
  /-- The characters that differ in case only from one of the set. -/
  | caseless (s : CharSet)
deriving DecidableEq, Repr

namespace CharSet

/-- The set has the character. -/
def mem : CharSet → Char → Bool
  | none, _ => false
  | range first last, c => first ≤ c && c ≤ last
  | digit, c => isDecimalDigit c
  | blank, c => isBlank c
  | word, c => isWordChar c
  | union s t, c => s.mem c || t.mem c
  | compl s, c => !s.mem c
  | caseless s, c => (caseVariants c).any s.mem

/-- Just this character. -/
def single (c : Char) : CharSet :=
  range c c

/-- Every character. -/
def any : CharSet :=
  compl none

/-- The characters of both sets. -/
def inter (s t : CharSet) : CharSet :=
  compl (union (compl s) (compl t))

/-- The characters of the first set that are not in the second. -/
def diff (s t : CharSet) : CharSet :=
  inter s (compl t)

/-- A set of one character has that one, as a range from it to itself. -/
@[simp] theorem mem_single {c d : Char} : (single c).mem d = (d == c) := by
  rw [single, mem, Bool.eq_iff_iff]
  simp only [Bool.and_eq_true, decide_eq_true_eq, beq_iff_eq]
  exact ⟨fun ⟨h, h'⟩ => Char.le_antisymm h' h, fun h => h ▸ ⟨Char.le_refl _, Char.le_refl _⟩⟩

/-- What is left of all characters when none is taken away. -/
@[simp] theorem mem_any {c : Char} : any.mem c = true := rfl

/-- Intersections are written with unions and complements, and mean what they should. -/
@[simp] theorem mem_inter {s t : CharSet} {c : Char} :
    (inter s t).mem c = (s.mem c && t.mem c) := by
  simp [inter, mem]

/-- So are differences, as a class in brackets may have them. -/
@[simp] theorem mem_diff {s t : CharSet} {c : Char} :
    (diff s t).mem c = (s.mem c && !t.mem c) := by
  simp [diff, mem]

/-! ## Sets with the same members -/

/-- The code points at which membership may change. -/
def edges : CharSet → List Nat
  | none => []
  | range first last => [first.toNat, last.toNat + 1]
  | digit => rangeEdges decimalDigitRanges
  | blank => rangeEdges blankRanges
  | word => rangeEdges wordCharRanges
  | union s t => s.edges ++ t.edges
  | compl s => s.edges
  | caseless s => s.edges ++ caseEdges

/-- The first character at the code point or behind it. -/
def charFrom? (n : Nat) : Option Char :=
  if n < 0xD800 then some (Char.ofNat n)
  else if n < 0xE000 then some '\uE000'
  else if n < 0x110000 then some (Char.ofNat n)
  else Option.none

/-- The sets have the same members. -/
def same (s t : CharSet) : Bool :=
  s == t || (0 :: (s.edges ++ t.edges)).all fun n => (charFrom? n).all fun c => s.mem c == t.mem c

/-- The first member of those at an edge. As the first of all members is at an edge, there
is one unless the set is empty. -/
def someMember? (s : CharSet) : Option Char :=
  ((0 :: s.edges).filterMap charFrom?).find? s.mem

/-- The set has no member. -/
def isEmpty (s : CharSet) : Bool :=
  s.someMember?.isNone

/-- The set has exactly one member. -/
def isSingle (s : CharSet) : Bool :=
  s.someMember?.any fun c => s.same (single c)

end CharSet

end Descent
