/-
Threads do not disturb each other.

The search follows all threads at once and enters no node twice at one place. What it
finds is what one would find by following the threads one after the other, each as far as
it comes, and taking the first that ends well (`matchThreads_eq_findSome?`). A node that
is not entered again has been entered by a thread that is wanted more, and whatever can be
had from there was had by that thread already.

That holds as long as no thread comes back, without reading, to a node where it still is:
then the visit it would skip is its own, and not yet over. So the nodes have to be free of
loops that read nothing (`isAcyclic`), which is decided by counting how far one comes from
a node without reading.
-/
import Descent.Pattern.Search

set_option autoImplicit false

namespace Descent

variable {β : Type}

/-! ## Loops that read nothing -/

/-- The nodes that may come next without reading, whatever the conditions. -/
def Node.skips : Node → List Nat
  | accept | read .. => []
  | check _ next => [next]
  | fork nexts => nexts

namespace Automaton

variable (A : Automaton)

/-- The nodes that may come next without reading. -/
def skips (n : Nat) : List Nat :=
  (A.nodes[n]?.map Node.skips).getD []

/-- The number of nodes that can be passed from this one without reading, up to a limit. -/
def height : Nat → Nat → Nat
  | 0, _ => 0
  | limit + 1, n => (A.skips n).foldr (fun m h => max (height limit m + 1) h) 0

/-- How far one comes from the node without reading. -/
def rank (n : Nat) : Nat :=
  A.height A.nodes.size n

/-- Without reading, one never comes as far from the next node as from this one. -/
def isAcyclic : Bool :=
  (List.range A.nodes.size).all fun n => (A.skips n).all fun m => A.rank m < A.rank n

variable {A} {before after : Option Char}

/-- The count is cut off at its limit. With as many as there are nodes for a limit, nothing is lost
where there are no loops. -/
theorem height_le (limit n : Nat) : A.height limit n ≤ limit := by
  induction limit generalizing n with
  | zero => exact Nat.le_refl 0
  | succ limit ih =>
    rw [height]
    induction A.skips n with
    | nil => exact Nat.zero_le _
    | cons m ms ihm => exact Nat.max_le.2 ⟨Nat.succ_le_succ (ih m), ihm⟩

/-- A node whose condition does not hold here leads nowhere, so the conditions can only make the
ways fewer. -/
theorem mem_skips_of_mem_nexts {n m : Nat} (h : m ∈ A.nexts before after n) : m ∈ A.skips n := by
  rw [nexts] at h
  rw [skips]
  cases hx : A.nodes[n]? with
  | none => simp [hx] at h
  | some x =>
    rw [hx, Option.map_some, Option.getD_some] at h
    rw [Option.map_some, Option.getD_some]
    cases x with
    | accept | read => simp [Node.nexts] at h
    | fork nexts => exact h
    | check a next =>
      rw [Node.nexts] at h
      split at h
      · exact h
      · simp at h

/-- In an acyclic automaton each step without reading comes nearer to an end. All inductions below
go by this number. -/
theorem rank_lt (hA : A.isAcyclic = true) {n m : Nat} (h : m ∈ A.nexts before after n) :
    A.rank m < A.rank n := by
  have hm := mem_skips_of_mem_nexts h
  by_cases hn : n < A.nodes.size
  · have all := List.all_eq_true.1 hA n (List.mem_range.2 hn)
    exact of_decide_eq_true (List.all_eq_true.1 all m hm)
  · rw [skips, Array.getElem?_eq_none (by omega)] at hm
    simp at hm

/-! ## Looking at one node after the other -/

variable (A before after)

/-- The first hit, looking at the node and then at all that come after it without reading. -/
def seek (hit : Nat → Option β) : Nat → Nat → Option β
  | 0, _ => none
  | fuel + 1, n => (hit n).or ((A.nexts before after n).findSome? (seek hit fuel))

variable {A before after} {hit : Nat → Option β}

/-- A first hit depends on the nodes that are looked at, and on no others. -/
private theorem findSome?_congr {f g : Nat → Option β} {ns : List Nat} (h : ∀ n ∈ ns, f n = g n) :
    ns.findSome? f = ns.findSome? g := by
  induction ns with
  | nil => rfl
  | cons n ns ih =>
    rw [List.findSome?_cons, List.findSome?_cons, h n List.mem_cons_self,
      ih fun m hm => h m (List.mem_cons_of_mem n hm)]

/-- With fuel enough for the rank of the node, more of it changes nothing. -/
theorem seek_stable (hA : A.isAcyclic = true) {fuel fuel' n : Nat} (h : A.rank n < fuel)
    (h' : A.rank n < fuel') : A.seek before after hit fuel n = A.seek before after hit fuel' n := by
  induction fuel generalizing fuel' n with
  | zero => omega
  | succ fuel ih =>
    obtain ⟨fuel', rfl⟩ : ∃ k, fuel' = k + 1 := ⟨fuel' - 1, by omega⟩
    rw [seek, seek]
    congr 1
    refine findSome?_congr fun m hm => ?_
    have := rank_lt hA hm
    exact ih (by omega) (by omega)

variable (A before after hit)

/-- The first hit from the node on. -/
def firstHit (n : Nat) : Option β :=
  A.seek before after hit (A.nodes.size + 1) n

variable {A before after hit}

/-- In particular the number of nodes is enough, which no rank exceeds. -/
theorem seek_eq_firstHit (hA : A.isAcyclic = true) {fuel n : Nat} (h : A.rank n < fuel) :
    A.seek before after hit fuel n = A.firstHit before after hit n :=
  seek_stable hA h (Nat.lt_succ_of_le (height_le _ n))

/-- The equation of a first hit, without fuel: the node itself, and then the nodes behind it by
preference. -/
theorem firstHit_eq (hA : A.isAcyclic = true) (n : Nat) :
    A.firstHit before after hit n =
      (hit n).or ((A.nexts before after n).findSome? (A.firstHit before after hit)) := by
  rw [firstHit, seek]
  congr 1
  refine findSome?_congr fun m hm => seek_eq_firstHit hA ?_
  have := rank_lt hA hm
  have : A.rank n ≤ A.nodes.size := height_le _ n
  omega

/-- Where nothing is hit from a node on, nothing is hit from those it leads to. -/
theorem firstHit_eq_none_of_reaches (hA : A.isAcyclic = true) {n m : Nat}
    (h : A.Reaches before after n m) (hn : A.firstHit before after hit n = none) :
    A.firstHit before after hit m = none := by
  induction h with
  | refl n => exact hn
  | step hm _ ih =>
    rw [firstHit_eq hA, Option.or_eq_none_iff, List.findSome?_eq_none_iff] at hn
    exact ih (hn.2 _ hm)

/-! ## Visits -/

variable (A before after hit)

/-- If no node visited is a hit, then nothing is hit from this one on. -/
def Exhausted (visited : List Nat) (v : Nat) : Prop :=
  visited.reverse.findSome? hit = none → A.firstHit before after hit v = none

variable {A before after hit}

/-- Visiting nodes in a row hits what looking at each of them hits first. Nodes visited before
are exhausted, or lie on the way here: those are not met again. -/
theorem findSome?_foldl_visit (hA : A.isAcyclic = true) (fuel : Nat) (ns visited : List Nat)
    (hfuel : ∀ n ∈ ns, A.rank n < fuel)
    (hvisited : ∀ v ∈ visited,
      (∀ n ∈ ns, A.rank n < A.rank v) ∨ A.Exhausted before after hit visited v) :
    (ns.foldl (A.visit before after fuel) visited).reverse.findSome? hit =
      (visited.reverse.findSome? hit).or (ns.findSome? (A.firstHit before after hit)) := by
  induction fuel generalizing ns visited with
  | zero =>
    cases ns with
    | nil => simp
    | cons n ns => exact absurd (hfuel n List.mem_cons_self) (Nat.not_lt_zero _)
  | succ fuel ihfuel =>
    -- One visit, from the visits it consists of.
    have one : ∀ (n : Nat) (visited : List Nat), A.rank n < fuel + 1 →
        (∀ v ∈ visited, A.rank n < A.rank v ∨ A.Exhausted before after hit visited v) →
        (A.visit before after (fuel + 1) visited n).reverse.findSome? hit =
          (visited.reverse.findSome? hit).or (A.firstHit before after hit n) := by
      intro n visited hn hvisited
      rw [visit]
      by_cases again : visited.contains n = true
      · -- A node on the way here would lie above itself, so that visit is over.
        rw [if_pos again]
        rcases hvisited n (List.contains_iff_mem.1 again) with h | exhausted
        · exact absurd h (Nat.lt_irrefl _)
        · cases hit? : visited.reverse.findSome? hit with
          | some b => rfl
          | none => rw [exhausted hit?]; rfl
      · rw [if_neg again, ihfuel, firstHit_eq hA]
        · simp [Option.or_assoc]
        · intro m hm
          have := rank_lt hA hm
          omega
        · intro v hv
          rcases List.mem_cons.1 hv with rfl | hv
          · exact .inl fun m hm => rank_lt hA hm
          · rcases hvisited v hv with h | exhausted
            · exact .inl fun m hm => Nat.lt_trans (rank_lt hA hm) h
            · right
              intro none
              rw [List.reverse_cons, List.findSome?_append, Option.or_eq_none_iff] at none
              exact exhausted none.1
    induction ns generalizing visited with
    | nil => simp
    | cons n ns ih =>
      have first := one n visited (hfuel n List.mem_cons_self) fun v hv =>
        (hvisited v hv).imp_left fun h => h n List.mem_cons_self
      rw [List.foldl_cons, ih, first, List.findSome?_cons, Option.or_assoc]
      · cases A.firstHit before after hit n <;> rfl
      · exact fun m hm => hfuel m (List.mem_cons_of_mem n hm)
      · -- What the first visit has added comes after the node it began at.
        intro v hv
        rcases reaches_of_mem_visit hv with hv | hv
        · rcases hvisited v hv with h | exhausted
          · exact .inl fun m hm => h m (List.mem_cons_of_mem n hm)
          · right
            intro none
            rw [first, Option.or_eq_none_iff] at none
            exact exhausted none.1
        · right
          intro none
          rw [first, Option.or_eq_none_iff] at none
          exact firstHit_eq_none_of_reaches hA hv none.2

/-- What the threads come to hits first what the first of them does that hits at all. -/
theorem findSome?_reached (hA : A.isAcyclic = true) (result : Node → Option β) (ns : List Nat) :
    (A.reached before after ns).findSome? result =
      ns.findSome? (A.firstHit before after fun n => A.nodes[n]?.bind result) := by
  have along (ms : List Nat) : (ms.filterMap (A.nodes[·]?)).findSome? result =
      ms.findSome? fun n => A.nodes[n]?.bind result := by
    induction ms with
    | nil => rfl
    | cons m ms ih => cases hm : A.nodes[m]? <;> simp [hm, ih, List.findSome?_cons]
  rw [reached, along, findSome?_foldl_visit hA]
  · simp
  · exact fun n _ => Nat.lt_succ_of_le (height_le _ n)
  · exact fun v hv => absurd hv List.not_mem_nil

/-! ## Matches -/

variable (A)

/-- What a thread that is alone reads from the node on, where it reads or stops there. -/
def ending (text : List Char) : Node → Option (List Char)
  | .accept => some []
  | .read s next =>
    match text with
    | [] => none
    | c :: cs => if s.mem c then (A.matchThreads (some c) [next] cs).map (c :: ·) else none
  | .check .. | .fork _ => none

variable {A}

/-- At one place, the threads that go on are followed in order, and the first that stops
there is the last to count. -/
private theorem resume_or_accept {c : Char} {cs : List Char} (here : List Node)
    (ih : ∀ ns, A.matchThreads (some c) ns cs =
      ns.findSome? fun n => A.matchThreads (some c) [n] cs) :
    (match A.matchThreads (some c) (resume c here) cs with
      | some m => some (c :: m)
      | none => if here.any (·.isAccept) then some [] else none) =
      here.findSome? (A.ending (c :: cs)) := by
  induction here with
  | nil => rw [resume, List.takeWhile_nil, List.filterMap_nil, matchThreads]; rfl
  | cons x here ihhere =>
    cases x with
    | accept =>
      -- A thread that stops cuts off those that are wanted less.
      have resumed : resume c (.accept :: here) = [] := rfl
      rw [resumed, matchThreads, List.findSome?_cons]
      rfl
    | check | fork => exact ihhere
    | read s next =>
      by_cases mem : s.mem c = true
      · have resumed : resume c (.read s next :: here) = next :: resume c here := by
          simp [resume, Node.isAccept, Node.reading?, mem]
        rw [ih] at ihhere ⊢
        rw [resumed, List.findSome?_cons, List.findSome?_cons, ending, if_pos mem]
        cases A.matchThreads (some c) [next] cs with
        | some m => rfl
        | none => simpa [Node.isAccept] using ihhere
      · have resumed : resume c (.read s next :: here) = resume c here := by
          simp [resume, Node.isAccept, Node.reading?, mem]
        rw [resumed, List.findSome?_cons, ending, if_neg mem]
        exact ihhere

/-- **Threads do not disturb each other.** What the search finds is what the first thread finds
that finds anything, followed alone. -/
theorem matchThreads_eq_firstHit (hA : A.isAcyclic = true) (before : Option Char) (ns : List Nat)
    (text : List Char) :
    A.matchThreads before ns text =
      ns.findSome? (A.firstHit before text.head? fun n => A.nodes[n]?.bind (A.ending text)) := by
  induction text generalizing before ns with
  | nil =>
    cases ns with
    | nil => rw [matchThreads]; rfl
    | cons n ns =>
      rw [matchThreads, List.head?_nil, ← findSome?_reached hA]
      induction A.reached before none (n :: ns) with
      | nil => rfl
      | cons x here ih => cases x <;> simp_all [Node.isAccept, ending, List.findSome?_cons]
  | cons c cs ih =>
    have alone (ns : List Nat) : A.matchThreads (some c) ns cs =
        ns.findSome? fun n => A.matchThreads (some c) [n] cs := by
      rw [ih]
      refine findSome?_congr fun n _ => ?_
      rw [ih, List.findSome?_singleton]
    cases ns with
    | nil => rw [matchThreads]; rfl
    | cons n ns =>
      rw [matchThreads, List.head?_cons, ← findSome?_reached hA]
      exact resume_or_accept _ alone

/-- The same in terms of searches with one thread only, which is the form that the meaning of an
expression is told in. -/
theorem matchThreads_eq_findSome? (hA : A.isAcyclic = true) (before : Option Char) (ns : List Nat)
    (text : List Char) :
    A.matchThreads before ns text = ns.findSome? fun n => A.matchThreads before [n] text := by
  rw [matchThreads_eq_firstHit hA]
  refine findSome?_congr fun n _ => ?_
  rw [matchThreads_eq_firstHit hA, List.findSome?_singleton]

/-- What a thread does that is alone at a node: it stops or reads there, or it goes on by the
first way that ends well. -/
theorem matchThreads_singleton (hA : A.isAcyclic = true) (before : Option Char) (n : Nat)
    (text : List Char) :
    A.matchThreads before [n] text =
      (A.nodes[n]?.bind (A.ending text)).or
        (A.matchThreads before (A.nexts before text.head? n) text) := by
  rw [matchThreads_eq_firstHit hA, List.findSome?_singleton, firstHit_eq hA,
    matchThreads_eq_firstHit hA]

end Automaton

end Descent
