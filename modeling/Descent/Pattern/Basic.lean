/-
Patterns.

A pattern is a regular expression as it was written, made to match where a run stands.
To that end its source is put into a group behind a `^` before it is read. What is read
is that whole text, so a source that closes the group and opens another escapes the `^`
with what stands between: `a)|(?:b` finds a `b` anywhere.
-/
import Descent.Pattern.Reader
import Descent.Pattern.Search

set_option autoImplicit false

namespace Descent

/-- A pattern: its source, and the automaton that searches for it. -/
structure Pattern where
  source : String
  automaton : Automaton
deriving DecidableEq, Repr

namespace Pattern

/-- The text that is read for a source. -/
def anchored (source : String) : List Char :=
  "^(?:".toList ++ source.toList ++ [')']

/-- The pattern with this source, unless the source is refused. -/
def ofSource? (source : String) : Option Pattern :=
  (Regex.ofSource? (anchored source)).map fun r => ⟨source, r.automaton⟩

/-- The pattern with a source that is not refused. -/
def ofSource (source : String) (h : (ofSource? source).isSome) : Pattern :=
  (ofSource? source).get h

/-- The text that the pattern finds. -/
def find? (p : Pattern) (text : List Char) : Option (List Char) :=
  p.automaton.find? text

end Pattern

end Descent
