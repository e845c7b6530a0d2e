/-
Regular expressions.

A regular expression can match a text in several ways, and the writer says which of
them is wanted: of two alternatives the left one, of a greedy repetition the longer
one, of a lazy one the shorter.

Expressions are kept in a normal form, and the functions here build it. A sequence is a
list of items, an alternative a list of branches, and neither has another of its kind
for an element: brackets that only hold things together leave no trace, a numbered
group does. Alternatives of single characters are one set. What all branches of an
alternative begin with stands before it once. A repetition of what reads nothing is made
at most once.

The normal form is more than tidiness. Where branches with a common beginning can be
entered in several ways, putting that beginning first lets its own preference go before
that of the branches: `\w+a|\w+b` reads all of `xaxb`, since the longer `\w+` is wanted
more than the `a`.
-/
import Descent.Pattern.CharSet

set_option autoImplicit false

namespace Descent

open Text

/-! ## Conditions on a place -/

/-- A condition on the two characters that meet at a place. -/
inductive Assertion where
  | textStart
  | textEnd
  | lineStart
  | lineEnd
  /-- A word begins or ends here. -/
  | wordEdge
  | noWordEdge
deriving DecidableEq, Repr

namespace Assertion

/-- The condition, between the character `before` and the character `after`; there is
none at the two ends of the text. -/
def holds (before after : Option Char) : Assertion → Bool
  | textStart => before.isNone
  | textEnd => after.isNone
  | lineStart => before.all (· == '\n')
  | lineEnd => after.all (· == '\n')
  | wordEdge => before.any isWordChar != after.any isWordChar
  | noWordEdge => before.any isWordChar == after.any isWordChar

end Assertion

/-! ## Expressions -/

/-- A regular expression. -/
inductive Regex where
  /-- Nothing is read. -/
  | empty
  /-- One character of the set. -/
  | set (s : CharSet)
  /-- Nothing is read, where the condition holds. -/
  | assertion (a : Assertion)
  /-- First the one, then the other. -/
  | seq (r s : Regex)
  /-- Either, the left one by preference. -/
  | alt (r s : Regex)
  /-- At least `least` times, and at most `most` times where that is given; when `greedy`,
  as often as possible by preference. -/
  | repeated (least : Nat) (most : Option Nat) (greedy : Bool) (r : Regex)
  /-- A group with a number of its own. -/
  | group (r : Regex)
deriving DecidableEq, Repr

namespace Regex

/-! ## Sequences -/

/-- What is read one after the other. -/
def items : Regex → List Regex
  | empty => []
  | seq r s => r :: s.items
  | r => [r]

/-- One item after the other. -/
def ofItems : List Regex → Regex
  | [] => empty
  | [r] => r
  | r :: rs => seq r (ofItems rs)

/-- All in sequence. -/
def concat (rs : List Regex) : Regex :=
  ofItems (rs.flatMap items)

/-! ## Alternatives -/

/-- What is read in either way. -/
def branches : Regex → List Regex
  | alt r s => r :: s.branches
  | r => [r]

/-- Any one of the branches; where there is none, nothing is read. -/
def ofBranches : List Regex → Regex
  | [] => empty
  | [r] => r
  | r :: rs => alt r (ofBranches rs)

/-- Exactly one character is read. -/
def isChar : Regex → Bool
  | set s => s.isSingle
  | _ => false

/-- The two are written alike, up to how their sets are written. A numbered group is like
no other. -/
def same : Regex → Regex → Bool
  | empty, empty => true
  | set s, set t => s.same t
  | assertion a, assertion b => a == b
  | seq r s, seq r' s' => r.same r' && s.same s'
  | alt r s, alt r' s' => r.same r' && s.same s'
  | repeated l m g r, repeated l' m' g' r' => l == l' && m == m' && g == g' && r.same r'
  | _, _ => false

/-- The items cut into pieces: a run of characters is one, and so is any other item. -/
def pieces (rs : List Regex) : List (List Regex) :=
  rs.splitBy fun r s => r.isChar && s.isChar

/-- The pieces that both begin with. -/
def commonLead : List (List Regex) → List (List Regex) → List (List Regex)
  | p :: ps, q :: qs =>
    if p.length == q.length && (p.zip q).all (fun (r, s) => r.same s) then p :: commonLead ps qs
    else []
  | _, _ => []

/-- The sets of the expressions, if all are sets. -/
def sets? (rs : List Regex) : Option (List CharSet) :=
  rs.mapM fun
    | set s => some s
    | _ => none

/-- The branches as one expression. Single characters become one set, and so do sets of
other sizes. -/
def either (rs : List Regex) : Regex :=
  match sets? rs with
  | some (s :: ss) =>
    if ss.all (·.isSingle == s.isSingle) then set (ss.foldl .union s) else ofBranches rs
  | _ => ofBranches rs

/-- Any one of them, the earlier by preference. What all branches begin with, if each has
more than one piece, stands before them. -/
def anyOf : List Regex → Regex
  | [] => empty
  | [r] => r
  | rs =>
    let rs := rs.flatMap branches
    let parts := rs.map fun r => pieces r.items
    let lead := parts.tail.foldl commonLead (parts.headD [])
    if lead.isEmpty || parts.any (·.length < 2) then either rs
    else
      let rests := parts.map fun ps => ofItems (ps.drop lead.length).flatten
      concat (lead.flatten ++ [either (rests.flatMap branches)])

/-! ## Repetitions -/

/-- Nothing can be read. -/
def readsNothing : Regex → Bool
  | empty | assertion _ => true
  | set _ => false
  | seq r s | alt r s => r.readsNothing && s.readsNothing
  | repeated _ _ _ r | group r => r.readsNothing

/-- The number of characters that are read at least, unless a set without members occurs. -/
def fewest? : Regex → Option Nat
  | empty | assertion _ => some 0
  | set s => if s.isEmpty then none else some 1
  | seq r s => do some ((← r.fewest?) + (← s.fewest?))
  | alt r s => do some (min (← r.fewest?) (← s.fewest?))
  | repeated least _ _ r => do some (least * (← r.fewest?))
  | group r => r.fewest?

/-- Something is read whenever the expression matches. -/
def readsAlways (r : Regex) : Bool :=
  r.fewest?.any (0 < ·)

/-- So often. What reads nothing is not repeated. -/
def times (r : Regex) (least : Nat) (most : Option Nat) (greedy : Bool) : Regex :=
  let (least, most) :=
    if r.readsNothing then (min least 1, some (min (most.getD 1) 1)) else (least, most)
  if most = some 0 then empty
  else if least = 1 ∧ most = some 1 then r
  else repeated least most greedy r

end Regex

end Descent
