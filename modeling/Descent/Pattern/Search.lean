/-
Searching a text for an expression.

All ways to match are followed at once, as a list of *threads* in order of preference.
At each place the threads first go on as far as they come without reading. They do so
one after the other, each trying its ways by preference, and none enters a node where
one was before at this place: whatever can be done from there is wanted more by the one
who came first. That bounds the work at each character by the number of nodes.

It also decides what a repetition does that has come round without reading. Its body has
been entered at this place, so it is not entered again where a thread already was, and
what is left is to go past it. That is so even if the body could still read something
from here: `(?:a*b*?)+` reads only the `a` of `ab`, since to leave the repetition is
wanted more than the `b` of the lazy `b*?`.

A thread that comes to the end is a match, and it beats every thread after it, so those
are dropped; the threads before it go on, and if one of them comes to the end later, its
match is the one wanted.

A match may begin anywhere, and the leftmost beginning wins. An expression that can begin
only where the text begins is not looked for further on.
-/
import Descent.Pattern.Automaton

set_option autoImplicit false

namespace Descent

/-! ## Going on without reading -/

/-- The nodes that come next without reading, between two characters. -/
def Node.nexts (before after : Option Char) : Node → List Nat
  | accept | read .. => []
  | check a next => if a.holds before after then [next] else []
  | fork nexts => nexts

/-- The node that comes next by reading the character. -/
def Node.reading? (c : Char) : Node → Option Nat
  | read s next => if s.mem c then some next else none
  | _ => none

namespace Automaton

variable (A : Automaton) (before after : Option Char)

/-- The nodes that come next without reading. -/
def nexts (n : Nat) : List Nat :=
  (A.nodes[n]?.map (·.nexts before after)).getD []

/-- The nodes visited so far, the latest first, when one more is visited with all that
comes after it and was not visited before. As each visit within a visit is at another
node, there are no more of them than nodes. -/
def visit : Nat → List Nat → Nat → List Nat
  | 0, visited, _ => visited
  | fuel + 1, visited, n =>
    if visited.contains n then visited
    else (A.nexts before after n).foldl (visit fuel) (n :: visited)

/-- The nodes that the threads come to, the most wanted first. -/
def reached (threads : List Nat) : List Node :=
  (threads.foldl (A.visit before after (A.nodes.size + 1)) []).reverse.filterMap (A.nodes[·]?)

/-! ## Matching -/

/-- The threads that go on with the character: those wanted more than stopping here. -/
def resume (c : Char) (here : List Node) : List Nat :=
  (here.takeWhile (!·.isAccept)).filterMap (Node.reading? c)

/-- The text that the most wanted match of the threads reads, at the beginning of the
text that follows `before`. -/
def matchThreads (before : Option Char) : List Nat → List Char → Option (List Char)
  | [], _ => none
  | threads@(_ :: _), [] =>
    if (A.reached before none threads).any (·.isAccept) then some [] else none
  | threads@(_ :: _), c :: cs =>
    let here := A.reached before (some c) threads
    match matchThreads (some c) (resume c here) cs with
    | some m => some (c :: m)
    | none => if here.any (·.isAccept) then some [] else none

/-- The text of the match at the beginning of the text that follows `before`. -/
def matchAt (text : List Char) : Option (List Char) :=
  A.matchThreads before [0] text

/-- The text of the leftmost match, in the text that follows `before`. -/
def findAfter (before : Option Char) : List Char → Option (List Char)
  | [] => A.matchAt before []
  | c :: cs =>
    match A.matchAt before (c :: cs) with
    | some m => some m
    | none => findAfter (some c) cs

/-- The text of the leftmost match. -/
def find? (text : List Char) : Option (List Char) :=
  if A.anchored then A.matchAt none text else A.findAfter none text

/-! ## Expressions that begin where the text begins -/

/-- A thread comes from the one node to the other without reading. -/
inductive Reaches : Nat → Nat → Prop
  | refl (n : Nat) : Reaches n n
  | step {n m k : Nat} (h : m ∈ A.nexts before after n) (t : Reaches m k) : Reaches n k

variable {A before after}

/-- A visit adds no node that is not reached from the one visited, so what holds of all that is
reached holds of all that is visited. -/
theorem reaches_of_mem_visit {fuel : Nat} {visited : List Nat} {n k : Nat}
    (h : k ∈ A.visit before after fuel visited n) :
    k ∈ visited ∨ A.Reaches before after n k := by
  induction fuel generalizing visited n with
  | zero => exact .inl h
  | succ fuel ih =>
    rw [visit] at h
    split at h
    · exact .inl h
    · have fold : ∀ (ms visited : List Nat),
          k ∈ ms.foldl (A.visit before after fuel) visited →
            k ∈ visited ∨ ∃ m ∈ ms, A.Reaches before after m k := by
        intro ms
        induction ms with
        | nil => exact fun _ h => .inl h
        | cons m ms ihm =>
          intro visited h
          rcases ihm _ h with h | ⟨m', hm', h⟩
          · rcases ih h with h | h
            · exact .inl h
            · exact .inr ⟨m, List.mem_cons_self, h⟩
          · exact .inr ⟨m', List.mem_cons_of_mem m hm', h⟩
      rcases fold _ _ h with h | ⟨m, hm, h⟩
      · rcases List.mem_cons.1 h with rfl | h
        · exact .inr (.refl k)
        · exact .inl h
      · exact .inr (.step hm h)

/-- The nodes are those of the automaton from `start` on. -/
def Holds (A : Automaton) (start : Nat) (nodes : List Node) : Prop :=
  ∀ i x, nodes[i]? = some x → A.nodes[start + i]? = some x

/-- The nodes of a sequence begin with those of its first part. -/
theorem Holds.left {start : Nat} {l m : List Node} (h : A.Holds start (l ++ m)) :
    A.Holds start l :=
  fun i x hi => h i x (by
    rw [List.getElem?_append_left (List.getElem?_eq_some_iff.1 hi).1, hi])

/-- And go on with those of its second part, from where the first one ends. -/
theorem Holds.right {start : Nat} {l m : List Node} (h : A.Holds start (l ++ m)) :
    A.Holds (start + l.length) m :=
  fun i x hi => by
    rw [Nat.add_assoc]
    exact h (l.length + i) x (by rw [List.getElem?_append_right (by omega)]; simpa using hi)

/-- Behind its first node, a list of nodes begins one further on. -/
theorem Holds.tail {start : Nat} {x : Node} {l : List Node} (h : A.Holds start (x :: l)) :
    A.Holds (start + 1) l :=
  Holds.right (l := [x]) h

/-- Where the nodes lead to is told from the node at the beginning, without looking into the
automaton. -/
theorem Holds.nexts_head {start : Nat} {x : Node} {l : List Node} (h : A.Holds start (x :: l)) :
    A.nexts before after start = x.nexts before after := by
  have h : A.nodes[start]? = some x := h 0 x rfl
  simp [nexts, h]

/-- Neither reading nor stopping is done at the node. -/
def Silent (A : Automaton) (n : Nat) : Prop :=
  ∀ x, A.nodes[n]? = some x → x.isAccept = false ∧ ∀ c, x.reading? c = none

/-- Whether something is done at a place is likewise told from the node that stands there. -/
theorem Holds.silent_head {start : Nat} {x : Node} {l : List Node} (h : A.Holds start (x :: l))
    (hx : x.isAccept = false ∧ ∀ c, x.reading? c = none) : A.Silent start := by
  intro y hy
  have h : A.nodes[start]? = some x := h 0 x rfl
  exact Option.some.inj (h.symm.trans hy) ▸ hx

/-- Behind the beginning of the text, an anchored expression comes to nothing. -/
theorem silent_of_isAnchored {r : Regex} (hr : r.isAnchored) {b : Char} {start next n : Nat}
    (h : A.Holds start (r.layout.nodes start next))
    (hn : A.Reaches (some b) after start n) : A.Silent n := by
  induction r generalizing start next with
  | empty | set | repeated => simp [Regex.isAnchored] at hr
  | assertion a =>
    cases a with
    | textStart =>
      cases hn with
      | refl => exact h.silent_head ⟨rfl, fun _ => rfl⟩
      | step hm _ =>
        rw [h.nexts_head] at hm
        simp [Node.nexts, Assertion.holds] at hm
    | _ => simp [Regex.isAnchored] at hr
  | seq r s ihr _ => exact ihr hr h.left hn
  | group r ih => exact ih hr h hn
  | alt r s ihr ihs =>
    rw [Regex.isAnchored, Bool.and_eq_true] at hr
    have hrs := h.tail
    cases hn with
    | refl => exact h.silent_head ⟨rfl, fun _ => rfl⟩
    | step hm t =>
      rw [h.nexts_head] at hm
      rcases List.mem_cons.1 hm with rfl | hm
      · exact ihr hr.1 hrs.left t
      · rw [List.mem_singleton] at hm
        subst hm
        have := hrs.right
        rw [r.layout.length_nodes] at this
        exact ihs hr.2 this t

/-- A match ends at a node that stops, and begins at one that reads or stops. If neither is reached
there is none. -/
theorem matchAt_eq_none_of_silent {b : Option Char} {text : List Char}
    (h : ∀ after n, A.Reaches b after 0 n → A.Silent n) : A.matchAt b text = none := by
  have silent : ∀ after, ∀ x ∈ A.reached b after [0],
      x.isAccept = false ∧ ∀ c, x.reading? c = none := by
    intro after x hx
    obtain ⟨n, hn, hx⟩ := List.mem_filterMap.1 hx
    rcases reaches_of_mem_visit (List.mem_reverse.1 hn) with hn | hn
    · cases hn
    · exact h after n hn x hx
  cases text with
  | nil =>
    simp only [matchAt, matchThreads]
    rw [if_neg]
    simpa using fun x hx => (silent none x hx).1
  | cons c cs =>
    have none_reads : resume c (A.reached b (some c) [0]) = [] := by
      simp only [resume, List.filterMap_eq_nil_iff]
      exact fun x hx => (silent (some c) x ((List.takeWhile_sublist _).mem hx)).2 c
    simp only [matchAt, matchThreads, none_reads]
    rw [if_neg]
    simpa using fun x hx => (silent (some c) x hx).1

/-- So it is found at the beginning or not at all. -/
theorem findAfter_eq_none {b : Char} {text : List Char}
    (h : ∀ b after n, A.Reaches (some b) after 0 n → A.Silent n) :
    A.findAfter (some b) text = none := by
  induction text generalizing b with
  | nil => exact matchAt_eq_none_of_silent (h b)
  | cons c cs ih => rw [findAfter, matchAt_eq_none_of_silent (h b)]; exact ih

/-- Not looking further for an anchored expression loses no match. -/
theorem find?_eq_findAfter (r : Regex) (text : List Char) :
    r.automaton.find? text = r.automaton.findAfter none text := by
  rw [find?]
  split
  · next hr =>
    have here : r.automaton.Holds 0 (r.layout.nodes 0 r.layout.size) := fun i x hi => by
      simp only [Regex.automaton, Nat.zero_add, List.getElem?_toArray]
      rw [List.getElem?_append_left (List.getElem?_eq_some_iff.1 hi).1, hi]
    have silent : ∀ b after n, r.automaton.Reaches (some b) after 0 n → r.automaton.Silent n :=
      fun _ _ _ => silent_of_isAnchored hr here
    cases text with
    | nil => rfl
    | cons c cs =>
      rw [findAfter]
      cases hm : r.automaton.matchAt none (c :: cs) with
      | some m => rfl
      | none => exact (findAfter_eq_none silent).symm
  · rfl

end Automaton

end Descent
