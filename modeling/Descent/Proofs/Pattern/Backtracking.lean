/-
What a search finds.

The meaning of a regular expression is told without an automaton. To match it and then go
on in some way is to try its ways in order of preference, each followed by that way to go
on, and to take the first that ends well (`Regex.first`). So of two alternatives the left
one counts where it can be completed at all, and a greedy repetition goes round once more
where that can.

The search by automata finds just that (`matchAt_automaton`), for expressions in which
nothing is repeated without end that could be passed without reading (`Regex.isSteady`).
The proof goes by layouts: the run of nodes of a part turns what is done from the node
behind it into what is done from its first node. A part that is looped over satisfies an
equation between the two, which has one solution only because each round reads something.
-/
import Descent.Proofs.Pattern.Threads
import Descent.Pattern.Basic

set_option autoImplicit false

namespace Descent

/-! ## Ways to go on -/

/-- What is read from a place on, given the character before it and the text ahead. -/
abbrev Match : Type := Option Char → List Char → Option (List Char)

namespace Match

/-- Stops here. -/
def accept : Match :=
  fun _ _ => some []

/-- The one way where it ends well, and otherwise the other; into a repetition by preference
where it is greedy. -/
def choose (greedy : Bool) (into past : Match) : Match := fun before text =>
  if greedy then (into before text).or (past before text)
  else (past before text).or (into before text)

/-- So many times. -/
def times (m : Match → Match) : Nat → Match → Match
  | 0, k => k
  | n + 1, k => m (times m n k)

/-- The rounds may be counted from the last one as well, as a layout does where what is repeated
comes before the rest. -/
theorem times_succ (m : Match → Match) (n : Nat) (k : Match) :
    times m (n + 1) k = times m n (m k) := by
  induction n with
  | zero => rfl
  | succ n ih => rw [times, ih, times]

/-- At most so many times. -/
def upTo (greedy : Bool) (m : Match → Match) : Nat → Match → Match
  | 0, k => k
  | n + 1, k => choose greedy (m (upTo greedy m n k)) k

/-- Any number of times. Where each time reads something, there are no more of them than
characters. -/
def star (greedy : Bool) (m : Match → Match) (k : Match) : Match := fun before text =>
  upTo greedy m (text.length + 1) k before text

/-- What is done depends on how it goes on only where at least `fewest` characters less are
ahead. -/
def Reads (fewest : Nat) (m : Match → Match) : Prop :=
  ∀ (k k' : Match) (before : Option Char) (text : List Char),
    (∀ b t, t.length + fewest ≤ text.length → k b t = k' b t) → m k before text = m k' before text

variable {greedy : Bool} {m : Match → Match} {k : Match}

/-- A choice depends on its two ways at the one place where it is made, and on nothing else of them.
-/
theorem choose_congr {into into' past past' : Match} {before : Option Char} {text : List Char}
    (hinto : into before text = into' before text) (hpast : past before text = past' before text) :
    choose greedy into past before text = choose greedy into' past' before text := by
  rw [choose, choose, hinto, hpast]

/-- A solution of the equation of a loop agrees with enough rounds of it. -/
theorem eq_upTo (hm : Reads 1 m) {x : Match}
    (hx : ∀ before text, x before text = choose greedy (m x) k before text) (n : Nat)
    (before : Option Char) (text : List Char) (h : text.length < n) :
    x before text = upTo greedy m n k before text := by
  induction n generalizing before text with
  | zero => omega
  | succ n ih =>
    rw [hx, upTo]
    refine choose_congr (hm _ _ _ _ fun b t ht => ih b t ?_) rfl
    omega

/-- More rounds than characters are no different from just enough, because each round reads
something. -/
theorem upTo_stable (hm : Reads 1 m) (n n' : Nat) (before : Option Char) (text : List Char)
    (h : text.length < n) (h' : text.length < n') :
    upTo greedy m n k before text = upTo greedy m n' k before text := by
  induction n generalizing n' before text with
  | zero => omega
  | succ n ih =>
    obtain ⟨n', rfl⟩ : ∃ i, n' = i + 1 := ⟨n' - 1, by omega⟩
    rw [upTo, upTo]
    exact choose_congr (hm _ _ _ _ fun b t ht => ih n' b t (by omega) (by omega)) rfl

/-- Once round and on, or past it: the equation of a loop. It holds as each round leaves less text,
so the rounds are enough. -/
theorem star_eq (hm : Reads 1 m) (before : Option Char) (text : List Char) :
    star greedy m k before text = choose greedy (m (star greedy m k)) k before text := by
  rw [star, upTo]
  refine choose_congr (hm _ _ _ _ fun b t ht => ?_) rfl
  exact upTo_stable hm _ _ b t (by omega) (by omega)

/-- That equation has no other solution. So to know what a layout with a loop does, it is enough to
see that it satisfies the equation. -/
theorem eq_star (hm : Reads 1 m) {x : Match}
    (hx : ∀ before text, x before text = choose greedy (m x) k before text) :
    x = star greedy m k := by
  funext before text
  exact eq_upTo hm hx _ before text (Nat.lt_succ_self _)

/-- What is read by the one and by the other adds up. -/
theorem Reads.seq {fewest fewest' : Nat} {m' : Match → Match} (hm : Reads fewest m)
    (hm' : Reads fewest' m') : Reads (fewest + fewest') fun k => m (m' k) := by
  intro k k' before text h
  refine hm _ _ before text fun b t ht => hm' k k' b t fun b' t' ht' => h b' t' ?_
  omega

/-- With a fixed number of rounds, what is read by each of them adds up. -/
theorem Reads.times {fewest : Nat} (hm : Reads fewest m) (n : Nat) :
    Reads (n * fewest) (times m n) := by
  induction n with
  | zero => exact fun k k' before text h => h before text (by omega)
  | succ n ih =>
    intro k k' before text h
    refine hm _ _ before text fun b t ht => ih k k' b t fun b' t' ht' => h b' t' ?_
    rw [Nat.succ_mul]
    omega

/-- Optional rounds may all be left out, so nothing is sure to be read, but what goes on still sees
no more text than before. -/
theorem Reads.upTo (hm : Reads 0 m) (n : Nat) : Reads 0 (upTo greedy m n) := by
  induction n with
  | zero => exact fun k k' before text h => h before text (Nat.le_refl _)
  | succ n ih =>
    intro k k' before text h
    refine choose_congr ?_ (h before text (Nat.le_refl _))
    exact hm _ _ before text fun b t ht => ih k k' b t fun b' t' ht' => h b' t' (by omega)

/-- An endless repetition is an optional one with rounds enough for the text, so the same holds of
it. -/
theorem Reads.star (hm : Reads 0 m) : Reads 0 (star greedy m) :=
  fun k k' before text h => hm.upTo (text.length + 1) k k' before text h

end Match

/-! ## The meaning of an expression -/

namespace Regex

/-- The expression and then `k`: the first of its ways that ends well. -/
def first : Regex → Match → Match
  | empty, k => k
  | set s, k => fun _ text =>
    match text with
    | [] => none
    | c :: cs => if s.mem c then (k (some c) cs).map (c :: ·) else none
  | assertion a, k => fun before text => if a.holds before text.head? then k before text else none
  | seq r s, k => r.first (s.first k)
  | alt r s, k => fun before text => (r.first k before text).or (s.first k before text)
  | repeated least (some most) greedy r, k =>
    Match.times r.first least (Match.upTo greedy r.first (most - least) k)
  | repeated least none greedy r, k => Match.times r.first least (Match.star greedy r.first k)
  | group r, k => r.first k

/-- The equation for a set with a character ahead, by name. The definition has it inside a match on
the text. -/
theorem first_set_cons (s : CharSet) (k : Match) (before : Option Char) (c : Char)
    (cs : List Char) :
    (set s).first k before (c :: cs) =
      if s.mem c then (k (some c) cs).map (c :: ·) else none :=
  rfl

/-- A set reads one character, so what goes on after it sees a shorter text. -/
theorem reads_set (s : CharSet) : Match.Reads 1 (set s).first := by
  intro k k' before text h
  cases text with
  | nil => rfl
  | cons c cs => rw [first_set_cons, first_set_cons, h (some c) cs (Nat.le_refl _)]

/-- What is repeated without end reads something each time. -/
def isSteady : Regex → Bool
  | empty | set _ | assertion _ => true
  | seq r s | alt r s => r.isSteady && s.isSteady
  | repeated _ most _ r => (most.isSome || r.readsAlways) && r.isSteady
  | group r => r.isSteady

/-- At least so many characters are read, where such a number can be told from the expression, and
never less than none. -/
theorem reads_first {r : Regex} {fewest : Nat} (h : fewest = 0 ∨ r.fewest? = some fewest) :
    Match.Reads fewest r.first := by
  induction r generalizing fewest with
  | empty | assertion a =>
    have : fewest = 0 := by simpa [fewest?, eq_comm] using h
    subst this
    intro k k' before text hk
    simp only [first]
    rw [hk before text (Nat.le_refl _)]
  | set s =>
    have : fewest ≤ 1 := by
      rcases h with rfl | h
      · exact Nat.zero_le 1
      · rw [fewest?] at h
        split at h
        · cases h
        · cases h
          exact Nat.le_refl 1
    intro k k' before text hk
    exact reads_set s k k' before text fun b t ht => hk b t (by omega)
  | group r ih => exact ih h
  | seq r s ihr ihs =>
    -- A number that is asked for is made up of what each part is known to read.
    obtain ⟨a, b, rfl, ha, hb⟩ : ∃ a b, fewest = a + b ∧ (a = 0 ∨ r.fewest? = some a) ∧
        (b = 0 ∨ s.fewest? = some b) := by
      rcases h with rfl | h
      · exact ⟨0, 0, rfl, .inl rfl, .inl rfl⟩
      · cases hr : r.fewest? <;> cases hs : s.fewest? <;> simp [fewest?, hr, hs] at h
        exact ⟨_, _, h.symm, .inr rfl, .inr rfl⟩
    exact (ihr ha).seq (ihs hb)
  | alt r s ihr ihs =>
    obtain ⟨a, b, ha, hb, hra, hsb⟩ : ∃ a b, fewest ≤ a ∧ fewest ≤ b ∧
        (a = 0 ∨ r.fewest? = some a) ∧ (b = 0 ∨ s.fewest? = some b) := by
      rcases h with rfl | h
      · exact ⟨0, 0, Nat.le_refl 0, Nat.le_refl 0, .inl rfl, .inl rfl⟩
      · cases hr : r.fewest? <;> cases hs : s.fewest? <;> simp [fewest?, hr, hs] at h
        exact ⟨_, _, by omega, by omega, .inr rfl, .inr rfl⟩
    intro k k' before text hk
    simp only [first]
    rw [ihr hra k k' before text fun b' t' ht' => hk b' t' (by omega),
      ihs hsb k k' before text fun b' t' ht' => hk b' t' (by omega)]
  | repeated least most greedy r ih =>
    have zero : Match.Reads 0 r.first := ih (.inl rfl)
    obtain ⟨a, rfl, ha⟩ : ∃ a, fewest = least * a ∧ (a = 0 ∨ r.fewest? = some a) := by
      rcases h with rfl | h
      · exact ⟨0, rfl, .inl rfl⟩
      · cases hr : r.fewest? <;> simp [fewest?, hr] at h
        exact ⟨_, h.symm, .inr rfl⟩
    intro k k' before text hk
    cases most with
    | some most =>
      refine (ih ha).times least _ _ before text fun b t ht => ?_
      exact zero.upTo _ k k' b t fun b' t' ht' => hk b' t' (by omega)
    | none =>
      refine (ih ha).times least _ _ before text fun b t ht => ?_
      exact zero.star k k' b t fun b' t' ht' => hk b' t' (by omega)

/-- What is sure to read something can be repeated without end. This is the hypothesis that the
lemmas on `star` have. -/
theorem reads_first_of_readsAlways {r : Regex} (h : r.readsAlways = true) :
    Match.Reads 1 r.first := by
  obtain ⟨n, hn, hpos⟩ : ∃ n, r.fewest? = some n ∧ 0 < n := by
    cases hr : r.fewest? with
    | none => simp [readsAlways, hr] at h
    | some n => exact ⟨n, rfl, by simpa [readsAlways, hr] using h⟩
  intro k k' before text hk
  exact reads_first (.inr hn) k k' before text fun b t ht => hk b t (by omega)

end Regex

/-! ## The meaning of a layout -/

namespace Automaton

/-- What a thread reads that begins at the node. -/
def from? (A : Automaton) (n : Nat) : Match := fun before text =>
  A.matchThreads before [n] text

variable {A : Automaton}

/-- **The equation of a node**: it reads or ends there, or else the nodes behind it are followed in
order of preference. In an acyclic automaton the threads of different nodes do not get in each
other's way. -/
theorem from?_eq (hA : A.isAcyclic = true) {n : Nat} {x : Node} (hx : A.nodes[n]? = some x)
    (before : Option Char) (text : List Char) :
    A.from? n before text =
      (A.ending text x).or
        ((x.nexts before text.head?).findSome? fun m => A.from? m before text) := by
  rw [from?, matchThreads_singleton hA, matchThreads_eq_findSome? hA, nexts, hx]
  rfl

/-- At a node that decides, this is a choice of two ways. The node reads nothing, so both begin at
the same place. -/
theorem from?_choice (hA : A.isAcyclic = true) {n into past : Nat} {greedy : Bool}
    (hx : A.nodes[n]? = some (Layout.choice greedy into past)) (before : Option Char)
    (text : List Char) :
    A.from? n before text = Match.choose greedy (A.from? into) (A.from? past) before text := by
  rw [from?_eq hA hx, Match.choose]
  cases greedy with
  | true =>
    simp only [ending, Layout.choice, Node.nexts, if_true, List.findSome?_cons, List.findSome?_nil]
    cases A.from? into before text <;> cases A.from? past before text <;> rfl
  | false =>
    simp only [ending, Layout.choice, Node.nexts, Bool.false_eq_true, if_false,
      List.findSome?_cons, List.findSome?_nil]
    cases A.from? into before text <;> cases A.from? past before text <;> rfl

/-- The first node of a layout stands where the layout begins. -/
theorem Holds.head {start : Nat} {x : Node} {l : List Node} (h : A.Holds start (x :: l)) :
    A.nodes[start]? = some x :=
  h 0 x rfl

end Automaton

namespace Layout

open Automaton

/-- In any automaton that has these nodes, what is done from the first of them is `m` of what
is done from the one behind them. -/
def Means (l : Layout) (m : Match → Match) : Prop :=
  ∀ (A : Automaton), A.isAcyclic = true → ∀ start next, A.Holds start (l.nodes start next) →
    A.from? start = m (A.from? next)

namespace Means

variable {l l' : Layout} {m m' : Match → Match} {greedy : Bool}

/-- A layout without nodes does what is done behind it. -/
theorem skip : Means skip id := by
  intro A hA start next h
  funext before text
  rw [from?_eq hA h.head]
  simp [ending, Node.nexts]

/-- The second part begins right behind the first one, so what is done from there is how the first
goes on. -/
theorem seq (hl : Means l m) (hl' : Means l' m') : Means (l.seq l') (fun k => m (m' k)) := by
  intro A hA start next h
  have right := Holds.right h
  rw [l.length_nodes] at right
  rw [hl A hA start _ (Holds.left h), hl' A hA _ next right]

/-- The first node decides for the left part by preference. Both parts go on at the same node behind
them. -/
theorem alt (hl : Means l m) (hl' : Means l' m') :
    Means (l.alt l') fun k before text => (m k before text).or (m' k before text) := by
  intro A hA start next h
  have right := Holds.right (Holds.tail h)
  rw [l.length_nodes] at right
  funext before text
  have decides : A.nodes[start]? = some (choice true (start + 1) (start + 1 + l.size)) := h.head
  rw [from?_choice hA decides, Match.choose, if_pos rfl,
    hl A hA _ next (Holds.left (Holds.tail h)), hl' A hA _ next right]

/-- A part that may be passed over is a choice between the part and what is behind it. -/
theorem optional (hl : Means l m) :
    Means (l.optional greedy) fun k => Match.choose greedy (m k) k := by
  intro A hA start next h
  funext before text
  rw [from?_choice hA h.head, hl A hA _ next (Holds.tail h)]

/-- The node that decides satisfies the equation of the loop. -/
theorem loop (greedy : Bool) (hl : Means l m) (hm : Match.Reads 1 m) :
    Means (l.loop greedy) (Match.star greedy m) := by
  intro A hA start next h
  refine Match.eq_star hm fun before text => ?_
  rw [from?_choice hA h.head, hl A hA _ start (Holds.tail h)]

/-- So does the node behind the part, and the part comes before it once. -/
theorem plus (greedy : Bool) (hl : Means l m) (hm : Match.Reads 1 m) :
    Means (l.plus greedy) fun k => m (Match.star greedy m k) := by
  intro A hA start next h
  have last := Holds.right h
  rw [l.length_nodes] at last
  have body := hl A hA start _ (Holds.left h)
  have decides : A.from? (start + l.size) = Match.star greedy m (A.from? next) := by
    refine Match.eq_star hm fun before text => ?_
    rw [from?_choice hA last.head, body]
  rw [body, decides]

/-- One after the other, each given with its meaning. By induction on the parts, from the last one,
which goes on behind all. -/
theorem sequence (parts : List (Layout × (Match → Match))) (h : ∀ p ∈ parts, Means p.1 p.2) :
    Means (sequence (parts.map Prod.fst)) fun k => parts.foldr (fun p k => p.2 k) k := by
  induction parts with
  | nil => exact skip
  | cons p parts ih =>
    have hp := h p List.mem_cons_self
    have hparts := ih fun q hq => h q (List.mem_cons_of_mem p hq)
    cases parts with
    | nil => exact hp
    | cons q parts => exact hp.seq hparts

/-- The optional rounds of a repetition, each inside the one before. -/
theorem upTo (greedy : Bool) (hl : Means l m) (n : Nat) :
    ∃ parts : List (Layout × (Match → Match)), l.upTo greedy n = parts.map Prod.fst ∧
      (∀ p ∈ parts, Means p.1 p.2) ∧
        ∀ k, parts.foldr (fun p k => p.2 k) k = Match.upTo greedy m n k := by
  induction n with
  | zero => exact ⟨[], rfl, fun p hp => absurd hp List.not_mem_nil, fun k => rfl⟩
  | succ n ih =>
    obtain ⟨parts, hfst, hmeans, hfold⟩ := ih
    have inner := sequence ((l, m) :: parts) fun p hp => by
      rcases List.mem_cons.1 hp with rfl | hp
      · exact hl
      · exact hmeans p hp
    refine ⟨[(Layout.optional greedy (Layout.sequence (l :: l.upTo greedy n)),
      Match.upTo greedy m (n + 1))], rfl, fun p hp => ?_, fun k => rfl⟩
    rw [List.mem_singleton.1 hp, hfst]
    intro A hA start next h
    rw [inner.optional A hA start next h]
    simp only [List.foldr_cons, hfold]
    rfl

/-- The rounds that are always made come first, then the parts that were given, such as the optional
rounds. -/
theorem times (hl : Means l m) (n : Nat) (parts : List (Layout × (Match → Match)))
    {m' : Match → Match} (hparts : ∀ p ∈ parts, Means p.1 p.2)
    (hfold : ∀ k, parts.foldr (fun p k => p.2 k) k = m' k) :
    Means (Layout.sequence (List.replicate n l ++ parts.map Prod.fst))
      fun k => Match.times m n (m' k) := by
  have all := sequence (List.replicate n (l, m) ++ parts) fun p hp => by
    rcases List.mem_append.1 hp with hp | hp
    · rw [List.eq_of_mem_replicate hp]
      exact hl
    · exact hparts p hp
  rw [List.map_append, List.map_replicate] at all
  intro A hA start next h
  rw [all A hA start next h]
  simp only [List.foldr_append, hfold]
  clear all h
  induction n with
  | zero => rfl
  | succ n ih => rw [List.replicate_succ, List.foldr_cons, ih, Match.times]

end Means

/-- The layout of a steady expression means what the expression does. -/
theorem means_layout {r : Regex} (h : r.isSteady = true) : Means r.layout r.first := by
  induction r with
  | empty => exact Means.skip
  | set s =>
    intro A hA start next h
    funext before text
    rw [from?_eq hA h.head]
    cases text with
    | nil => rfl
    | cons c cs => simp [ending, Node.nexts, from?, Regex.first]
  | assertion a =>
    intro A hA start next h
    funext before text
    rw [from?_eq hA h.head]
    by_cases holds : a.holds before text.head? = true
    · simp [ending, Node.nexts, Regex.first, holds]
    · simp [ending, Node.nexts, Regex.first, holds]
  | seq r s ihr ihs =>
    rw [Regex.isSteady, Bool.and_eq_true] at h
    exact (ihr h.1).seq (ihs h.2)
  | alt r s ihr ihs =>
    rw [Regex.isSteady, Bool.and_eq_true] at h
    exact (ihr h.1).alt (ihs h.2)
  | group r ih => exact ih h
  | repeated least most greedy r ih =>
    rw [Regex.isSteady, Bool.and_eq_true] at h
    have hr := ih h.2
    cases most with
    | some most =>
      obtain ⟨parts, hfst, hmeans, hfold⟩ := hr.upTo greedy (most - least)
      have all := hr.times least parts hmeans hfold
      rw [← hfst] at all
      exact all
    | none =>
      -- Each round reads something, which is what the equation of a loop needs.
      have always : r.readsAlways = true := by simpa using h.1
      have reads := Regex.reads_first_of_readsAlways always
      cases least with
      | zero =>
        have loop := hr.loop greedy reads
        intro A hA start next h
        refine loop A hA start next ?_
        simpa [Regex.layout, Layout.repeated, Layout.star, always] using h
      | succ least =>
        -- The last of the rounds that have to be is the one that is looped over.
        have all := hr.times least [(r.layout.plus greedy, _)]
          (fun p hp => by rw [List.mem_singleton.1 hp]; exact hr.plus greedy reads)
          fun k => rfl
        intro A hA start next h
        rw [all A hA start next h, Regex.first, Match.times_succ]
        rfl

end Layout

/-- **The search finds what the expression means.** What is matched at the beginning of the text
is what the first way through the expression reads that can be completed. -/
theorem Regex.matchAt_automaton {r : Regex} (steady : r.isSteady = true)
    (acyclic : r.automaton.isAcyclic = true) (before : Option Char) (text : List Char) :
    r.automaton.matchAt before text = r.first Match.accept before text := by
  have nodes : r.automaton.Holds 0 (r.layout.nodes 0 r.layout.size ++ [.accept]) := by
    intro i x hi
    rw [Nat.zero_add]
    simpa [Regex.automaton] using hi
  have last := Automaton.Holds.right nodes
  rw [r.layout.length_nodes, Nat.zero_add] at last
  have accepts : r.automaton.from? r.layout.size = Match.accept := by
    funext before text
    rw [Automaton.from?_eq acyclic last.head]
    rfl
  have whole := Layout.means_layout steady _ acyclic 0 _ (Automaton.Holds.left nodes)
  rw [accepts] at whole
  exact congrFun (congrFun whole before) text

/-- So does a pattern, as it is made to match where a run stands. -/
theorem Pattern.find?_ofSource {source : String} (h : (ofSource? source).isSome) {r : Regex}
    (hr : Regex.ofSource? (anchored source) = some (.seq (.assertion .textStart) r))
    (steady : r.isSteady = true)
    (acyclic : (Regex.seq (.assertion .textStart) r).automaton.isAcyclic = true)
    (text : List Char) : (ofSource source h).find? text = r.first Match.accept none text := by
  have automaton : (ofSource source h).automaton =
      (Regex.seq (.assertion .textStart) r).automaton := by
    simp [ofSource, ofSource?, hr]
  rw [find?, automaton, Automaton.find?]
  refine (if_pos rfl).trans ?_
  have whole : (Regex.seq (.assertion .textStart) r).isSteady = true := steady
  rw [Regex.matchAt_automaton whole acyclic]
  rfl

end Descent
