/-
Automata.

An expression is laid out as numbered nodes. A thread that stands at a node may read a
character there, or go on to other nodes without reading, under a condition perhaps or
by one of several ways in order of preference.

Each part of an expression becomes a run of nodes that is entered at its first one and
left for one node behind it. So the layout of a part depends on two numbers only: where
its nodes begin, and which node is next. A part that stands at two places of an
expression gets nodes at each, so to know the node is to know the place.
-/
import Descent.Pattern.Regex

set_option autoImplicit false

namespace Descent

/-- What a thread at a node can do. -/
inductive Node where
  /-- Stop: all is matched. -/
  | accept
  /-- Read a character of the set, and go on. -/
  | read (s : CharSet) (next : Nat)
  /-- Go on where the condition holds. -/
  | check (a : Assertion) (next : Nat)
  /-- Go on at any of the nodes, the earlier by preference. -/
  | fork (nexts : List Nat)
deriving DecidableEq, Repr

/-- The node matches all. -/
def Node.isAccept : Node → Bool
  | accept => true
  | _ => false

/-! ## Laying out expressions -/

/-- A run of nodes, given where it begins and which node is next. -/
structure Layout where
  size : Nat
  nodes : (start next : Nat) → List Node
  length_nodes : ∀ start next, (nodes start next).length = size

namespace Layout

/-- One node. -/
def single (f : (start next : Nat) → Node) : Layout where
  size := 1
  nodes start next := [f start next]
  length_nodes := by simp

/-- Straight on. -/
def skip : Layout :=
  single fun _ next => .fork [next]

/-- The one, then the other. -/
def seq (l m : Layout) : Layout where
  size := l.size + m.size
  nodes start next := l.nodes start (start + l.size) ++ m.nodes (start + l.size) next
  length_nodes := by simp [l.length_nodes, m.length_nodes]

/-- Either, the left one by preference. -/
def alt (l m : Layout) : Layout where
  size := 1 + (l.size + m.size)
  nodes start next :=
    .fork [start + 1, start + 1 + l.size] ::
      (l.nodes (start + 1) next ++ m.nodes (start + 1 + l.size) next)
  length_nodes := by simp [l.length_nodes, m.length_nodes]; omega

/-- Into the part or past it, by preference into it when `greedy`. -/
def choice (greedy : Bool) (into past : Nat) : Node :=
  .fork (if greedy then [into, past] else [past, into])

/-- Once or not at all. -/
def optional (greedy : Bool) (l : Layout) : Layout where
  size := 1 + l.size
  nodes start next := choice greedy (start + 1) next :: l.nodes (start + 1) next
  length_nodes := by simp [l.length_nodes]; omega

/-- Any number of times, where each time something is read: one node decides before each. -/
def loop (greedy : Bool) (l : Layout) : Layout where
  size := 1 + l.size
  nodes start next := choice greedy (start + 1) next :: l.nodes (start + 1) start
  length_nodes := by simp [l.length_nodes]; omega

/-- Once or more: a node behind the part decides whether it is entered again. -/
def plus (greedy : Bool) (l : Layout) : Layout where
  size := l.size + 1
  nodes start next := l.nodes start (start + l.size) ++ [choice greedy start next]
  length_nodes := by simp [l.length_nodes]

/-- All, one after the other. -/
def sequence : List Layout → Layout
  | [] => skip
  | [l] => l
  | l :: ls => l.seq (sequence ls)

/-- At most so many times: each further one is optional where the one before was there. -/
def upTo (greedy : Bool) (l : Layout) : Nat → List Layout
  | 0 => []
  | n + 1 => [optional greedy (sequence (l :: l.upTo greedy n))]

/-- Any number of times. A part that can be passed without reading is not looped over: a
thread that came round to the one deciding node would find it visited, and the ways past
it would lose their place in the order. -/
def star (greedy readsAlways : Bool) (l : Layout) : Layout :=
  if readsAlways then loop greedy l else optional greedy (plus greedy l)

/-- At least `least` times, and at most `most` times where that is given. Each time that is
counted has nodes of its own. -/
def repeated (greedy readsAlways : Bool) (l : Layout) :
    (least : Nat) → (most : Option Nat) → Layout
  | least, some most => sequence (List.replicate least l ++ l.upTo greedy (most - least))
  | 0, none => star greedy readsAlways l
  | least + 1, none => sequence (List.replicate least l ++ [plus greedy l])

end Layout

namespace Regex

/-- The nodes of an expression. -/
def layout : Regex → Layout
  | empty => .skip
  | set s => .single fun _ next => .read s next
  | assertion a => .single fun _ next => .check a next
  | seq r s => r.layout.seq s.layout
  | alt r s => r.layout.alt s.layout
  | repeated least most greedy r => r.layout.repeated greedy r.readsAlways least most
  | group r => r.layout

/-- Nothing of the expression matches behind the beginning of the text, as can be told
from how it is written. -/
def isAnchored : Regex → Bool
  | assertion .textStart => true
  | seq r _ | group r => r.isAnchored
  | alt r s => r.isAnchored && s.isAnchored
  | empty | set _ | assertion _ | repeated .. => false

end Regex

/-! ## Automata -/

/-- The nodes of an expression, the first of which is where threads begin, and whether it
is anchored at the beginning of the text. -/
structure Automaton where
  nodes : Array Node
  anchored : Bool
deriving DecidableEq, Repr

/-- The automaton of an expression: its nodes, and behind them one that accepts. -/
def Regex.automaton (r : Regex) : Automaton where
  nodes := (r.layout.nodes 0 r.layout.size ++ [Node.accept]).toArray
  anchored := r.isAnchored

end Descent
