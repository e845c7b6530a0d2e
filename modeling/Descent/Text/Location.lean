/-
Lines and columns.

A reader of an error message counts lines and, within a line, characters, both from
one. A location is what an offset looks like to such a reader: the line is one more
than the number of line breaks before it, the column one more than the number of
characters since the last of them. An offset past the end of the text is read as its
end; an offset inside a character has no location.
-/
import Descent.Text.Offset

set_option autoImplicit false

namespace Descent.Text

/-- A line and a column, both counted from one. -/
structure Location where
  line : Nat
  column : Nat
deriving DecidableEq, Repr

namespace Location

/-- Where a reader stands who has read `before`. -/
def after (before : List Char) : Location where
  line := before.count '\n' + 1
  column := (before.reverse.takeWhile (· != '\n')).length + 1

/-- Where the offset lies in the text, when it lies anywhere. -/
def ofOffset? (text : List Char) (offset : Nat) : Option Location :=
  (takeBytes (min offset (byteLength text)) text).map after

/-- Behind a front part stands who has read it. So locations are reasoned about by front parts, and
not by offsets. -/
theorem ofOffset?_append (front back : List Char) :
    ofOffset? (front ++ back) (byteLength front) = some (after front) := by
  rw [ofOffset?, byteLength_append, Nat.min_eq_left (Nat.le_add_right _ _), takeBytes_append]
  rfl

/-- The location as it stands at the head of an error message. -/
def render (l : Location) : String :=
  "[" ++ toString l.line ++ ":" ++ toString l.column ++ "]"

end Location

end Descent.Text
