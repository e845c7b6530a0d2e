/-
What an expression can read.

The texts that an expression can read are told by recursion on it, the conditions on
places left aside (`Regex.Spells`). Every match is such a text, at the beginning of what
is searched (`Regex.spells_of_first`). So what a token consists of can be read off its
expression, without following a search.

The other way round, which of its texts an expression reads depends on what follows. A
greedy repetition reads all its parts where the way behind them ends well and nothing there
could be a further part (`Match.Takes.star`).
-/
import Descent.Proofs.Pattern.Backtracking

set_option autoImplicit false

namespace Descent

namespace Regex

/-! ## The texts of an expression -/

/-- Texts in a row; there are as many of them as may be. -/
def InRow (r : List Char → Prop) (count : Nat → Prop) (cs : List Char) : Prop :=
  ∃ parts : List (List Char), cs = parts.flatten ∧ count parts.length ∧ ∀ p ∈ parts, r p

/-- The expression can read the text, if all its conditions hold where they are met. -/
def Spells : Regex → List Char → Prop
  | empty, cs | assertion _, cs => cs = []
  | set s, cs => ∃ c, cs = [c] ∧ s.mem c = true
  | seq r s, cs => ∃ front back, cs = front ++ back ∧ r.Spells front ∧ s.Spells back
  | alt r s, cs => r.Spells cs ∨ s.Spells cs
  | repeated least most _ r, cs =>
    InRow r.Spells (fun n => least ≤ n ∧ ∀ i, most = some i → n ≤ max least i) cs
  | group r, cs => r.Spells cs

/-- What is read is such a text, and what the rest of the way reads behind it. -/
def Finds (r : List Char → Prop) (m : Match → Match) : Prop :=
  ∀ (k : Match) (before : Option Char) (text found : List Char),
    m k before text = some found →
      ∃ front back rest b, found = front ++ back ∧ text = front ++ rest ∧ r front ∧
        k b rest = some back

namespace Finds

variable {r : List Char → Prop} {m : Match → Match} {greedy : Bool}

/-- By induction on the number: what is found by one round is a part, and the others are found
behind it. -/
theorem times (h : Finds r m) (n : Nat) : Finds (InRow r (· = n)) (Match.times m n) := by
  induction n with
  | zero =>
    intro k before text found hfound
    exact ⟨[], found, text, before, rfl, rfl, ⟨[], rfl, rfl, by simp⟩, hfound⟩
  | succ n ih =>
    intro k before text found hfound
    obtain ⟨p, back, rest, b, rfl, rfl, hp, hback⟩ := h _ _ _ _ hfound
    obtain ⟨front, back, rest, b, rfl, rfl, ⟨parts, rfl, hlen, hparts⟩, hk⟩ := ih _ _ _ _ hback
    refine ⟨p ++ parts.flatten, back, rest, b, by simp, by simp, ⟨p :: parts, rfl, ?_, ?_⟩, hk⟩
    · rw [List.length_cons, hlen]
    · exact List.forall_mem_cons.2 ⟨hp, hparts⟩

/-- The same where rounds may be left out, with an upper bound for the parts. -/
theorem upTo (h : Finds r m) (n : Nat) : Finds (InRow r (· ≤ n)) (Match.upTo greedy m n) := by
  induction n with
  | zero =>
    intro k before text found hfound
    exact ⟨[], found, text, before, rfl, rfl, ⟨[], rfl, Nat.le_refl 0, by simp⟩, hfound⟩
  | succ n ih =>
    intro k before text found hfound
    -- Greedy or not, it came one way or the other.
    have ways : m (Match.upTo greedy m n k) before text = some found ∨
        k before text = some found := by
      rw [Match.upTo, Match.choose] at hfound
      split at hfound
      · exact (Option.or_eq_some_iff.1 hfound).imp_right And.right
      · exact (Option.or_eq_some_iff.1 hfound).symm.imp_left And.right
    rcases ways with into | past
    · obtain ⟨p, back, rest, b, rfl, rfl, hp, hback⟩ := h _ _ _ _ into
      obtain ⟨front, back, rest, b, rfl, rfl, ⟨parts, rfl, hlen, hparts⟩, hk⟩ := ih _ _ _ _ hback
      refine ⟨p ++ parts.flatten, back, rest, b, by simp, by simp, ⟨p :: parts, rfl, ?_, ?_⟩, hk⟩
      · exact Nat.succ_le_succ hlen
      · exact List.forall_mem_cons.2 ⟨hp, hparts⟩
    · exact ⟨[], found, text, before, rfl, rfl, ⟨[], rfl, Nat.zero_le _, by simp⟩, past⟩

/-- An endless repetition has rounds enough for the text, and their number says nothing any more. -/
theorem star (h : Finds r m) : Finds (InRow r fun _ => True) (Match.star greedy m) := by
  intro k before text found hfound
  obtain ⟨front, back, rest, b, hf, ht, ⟨parts, hflat, -, hparts⟩, hk⟩ :=
    h.upTo (text.length + 1) k before text found hfound
  exact ⟨front, back, rest, b, hf, ht, ⟨parts, hflat, trivial, hparts⟩, hk⟩

/-- First so many, and then some more: the two rows are one, and its count is the sum. -/
theorem repeated (h : Finds r m) {count : Nat → Prop} {m' : Match → Match}
    (h' : Finds (InRow r count) m') (n : Nat) (count' : Nat → Prop)
    (hcount : ∀ i, count i → count' (n + i)) :
    Finds (InRow r count') fun k => Match.times m n (m' k) := by
  intro k before text found hfound
  obtain ⟨front, back, rest, b, rfl, rfl, ⟨parts, rfl, hlen, hparts⟩, hback⟩ :=
    h.times n _ _ _ _ hfound
  obtain ⟨front', back, rest, b, rfl, rfl, ⟨parts', rfl, hlen', hparts'⟩, hk⟩ := h' _ _ _ _ hback
  refine ⟨(parts ++ parts').flatten, back, rest, b, by simp, by simp, ⟨_, rfl, ?_, ?_⟩, hk⟩
  · rw [List.length_append, hlen]
    exact hcount _ hlen'
  · exact fun p hp => (List.mem_append.1 hp).elim (hparts p) (hparts' p)

end Finds

/-- **What is found is a text of the expression**, at the beginning of the text searched. -/
theorem finds_first (r : Regex) : Finds r.Spells r.first := by
  induction r with
  | empty =>
    intro k before text found h
    exact ⟨[], found, text, before, rfl, rfl, rfl, h⟩
  | assertion a =>
    intro k before text found h
    simp only [first] at h
    split at h
    · exact ⟨[], found, text, before, rfl, rfl, rfl, h⟩
    · cases h
  | set s =>
    intro k before text found h
    cases text with
    | nil => cases h
    | cons c cs =>
      simp only [first] at h
      split at h
      · next hc =>
        obtain ⟨back, hk, rfl⟩ := Option.map_eq_some_iff.1 h
        exact ⟨[c], back, cs, some c, rfl, rfl, ⟨c, rfl, hc⟩, hk⟩
      · cases h
  | seq r s ihr ihs =>
    intro k before text found h
    obtain ⟨front, back, rest, b, rfl, rfl, hr, hback⟩ := ihr _ _ _ _ h
    obtain ⟨front', back, rest, b, rfl, rfl, hs, hk⟩ := ihs _ _ _ _ hback
    exact ⟨front ++ front', back, rest, b, by simp, by simp, ⟨front, front', rfl, hr, hs⟩, hk⟩
  | alt r s ihr ihs =>
    intro k before text found h
    rw [first, Option.or_eq_some_iff] at h
    rcases h with h | ⟨-, h⟩
    · obtain ⟨front, back, rest, b, hf, ht, hr, hk⟩ := ihr _ _ _ _ h
      exact ⟨front, back, rest, b, hf, ht, .inl hr, hk⟩
    · obtain ⟨front, back, rest, b, hf, ht, hs, hk⟩ := ihs _ _ _ _ h
      exact ⟨front, back, rest, b, hf, ht, .inr hs, hk⟩
  | group r ih => exact ih
  | repeated least most greedy r ih =>
    cases most with
    | some most =>
      refine ih.repeated (ih.upTo (most - least)) least _ fun i hi => ⟨by omega, fun j hj => ?_⟩
      cases hj
      omega
    | none => exact ih.repeated ih.star least _ fun i _ => ⟨by omega, by simp⟩

/-- A match is a text of the expression that stands at the beginning. -/
theorem spells_of_first {r : Regex} {before : Option Char} {text found : List Char}
    (h : r.first Match.accept before text = some found) :
    r.Spells found ∧ ∃ rest, text = found ++ rest := by
  obtain ⟨front, back, rest, b, rfl, rfl, hr, hback⟩ := finds_first r _ _ _ _ h
  cases hback
  rw [List.append_nil]
  exact ⟨hr, rest, rfl⟩

/-! ## The texts of repetitions -/

/-- A part that may be left out is a row of at most one. -/
theorem spells_optional {greedy : Bool} {r : Regex} {cs : List Char} :
    (repeated 0 (some 1) greedy r).Spells cs ↔ cs = [] ∨ r.Spells cs := by
  constructor
  · rintro ⟨parts, rfl, ⟨-, most⟩, hparts⟩
    match parts, most 1 rfl, hparts with
    | [], _, _ => exact .inl rfl
    | [p], _, hparts =>
      right
      rw [List.flatten_singleton]
      exact hparts p (List.mem_singleton_self p)
  · rintro (rfl | h)
    · exact ⟨[], rfl, ⟨Nat.le_refl 0, fun i hi => Nat.zero_le _⟩, by simp⟩
    · refine ⟨[cs], by simp, ⟨Nat.zero_le 1, fun i hi => ?_⟩, by simpa using h⟩
      cases hi
      exact Nat.le_refl 1

/-- A row of single characters is a text of such characters, and each counts for one part. -/
theorem spells_setRow {least : Nat} {greedy : Bool} {s : CharSet} {cs : List Char} :
    (repeated least none greedy (set s)).Spells cs ↔
      least ≤ cs.length ∧ ∀ c ∈ cs, s.mem c = true := by
  constructor
  · rintro ⟨parts, rfl, ⟨least, -⟩, hparts⟩
    -- Each part is a single character.
    have singles : ∃ ds : List Char, parts = ds.map (fun c => [c]) ∧ ∀ d ∈ ds, s.mem d = true := by
      clear least
      induction parts with
      | nil => exact ⟨[], rfl, by simp⟩
      | cons p parts ih =>
        obtain ⟨d, rfl, hd⟩ := hparts p List.mem_cons_self
        obtain ⟨ds, rfl, hds⟩ := ih fun q hq => hparts q (List.mem_cons_of_mem _ hq)
        exact ⟨d :: ds, rfl, List.forall_mem_cons.2 ⟨hd, hds⟩⟩
    obtain ⟨ds, rfl, hds⟩ := singles
    rw [← List.flatMap_def, List.flatMap_singleton']
    rw [List.length_map] at least
    exact ⟨least, hds⟩
  · rintro ⟨hlen, hcs⟩
    refine ⟨cs.map fun c => [c], ?_, ⟨?_, by simp⟩, fun p hp => ?_⟩
    · rw [← List.flatMap_def, List.flatMap_singleton']
    · rw [List.length_map]
      exact hlen
    · obtain ⟨c, hc, rfl⟩ := List.mem_map.1 hp
      exact ⟨c, rfl, hcs c hc⟩

end Regex

/-! ## What is certain to be read -/

namespace Match

/-- Just this is read of the text, whatever stands before it. -/
def Takes (k : Match) (text found : List Char) : Prop :=
  ∀ before, k before text = some found

/-- Nothing can be read of the text, whatever stands before it. -/
def Misses (k : Match) (text : List Char) : Prop :=
  ∀ before, k before text = none

variable {m : Match → Match} {k : Match} {s : CharSet} {text found : List Char}

/-- At the end of the way nothing more is read, of whatever text. -/
theorem Takes.accept : Takes Match.accept text [] :=
  fun _ => rfl

/-- A character of the set is read, if what follows is read behind it. -/
theorem Takes.set {c : Char} (hc : s.mem c = true) (h : Takes k text found) :
    Takes ((Regex.set s).first k) (c :: text) (c :: found) := by
  intro before
  rw [Regex.first_set_cons, if_pos hc, h, Option.map_some]

/-- Where no character of the set comes first, a set reads nothing, at the end of the text in
particular. -/
theorem Misses.set (h : ∀ c ∈ text.head?, s.mem c = false) :
    Misses ((Regex.set s).first k) text := by
  intro before
  cases text with
  | nil => rfl
  | cons c cs =>
    have hc : ¬ s.mem c = true := by simp [h c rfl]
    rw [Regex.first_set_cons, if_neg hc]

/-- What an expression cannot read is not read, whatever is to follow. -/
theorem Misses.of_spells {r : Regex} (h : ∀ front rest, text = front ++ rest → ¬ r.Spells front) :
    Misses (r.first k) text := by
  intro before
  cases hfound : r.first k before text with
  | none => rfl
  | some found =>
    obtain ⟨front, _, rest, _, _, htext, spells, _⟩ := Regex.finds_first r _ _ _ _ hfound
    exact absurd spells (h front rest htext)

/-- A greedy choice goes in where that ends well, and never looks at the other way. -/
theorem Takes.into {x : Match} (h : Takes x text found) : Takes (choose true x k) text found := by
  intro before
  rw [choose, if_pos rfl, h, Option.some_or]

/-- It passes by where going in comes to nothing. That it does has to be known for the whole way
behind it. -/
theorem Takes.past {x : Match} (miss : Misses x text) (h : Takes k text found) :
    Takes (choose true x k) text found := by
  intro before
  rw [choose, if_pos rfl, miss, Option.none_or, h]

/-- Of two alternatives the left one counts where it can be completed, whatever the right one could
read. -/
theorem Takes.left {r r' : Regex} (h : Takes (r.first k) text found) :
    Takes ((Regex.alt r r').first k) text found := by
  intro before
  show (r.first k before text).or (r'.first k before text) = some found
  rw [h, Option.some_or]

/-- The right one counts where no way through the left one can be completed. -/
theorem Takes.right {r r' : Regex} (miss : Misses (r.first k) text)
    (h : Takes (r'.first k) text found) : Takes ((Regex.alt r r').first k) text found := by
  intro before
  show (r.first k before text).or (r'.first k before text) = some found
  rw [miss, Option.none_or, h]

/-- The parts are read one after the other, where each can be read in front of those behind it,
and nothing more in front of the rest. What it takes for a part to end where it does is asked of
all that stands behind a part. -/
theorem Takes.star (hm : Reads 1 m) {rest : List Char} (parts : List (List Char))
    (Ends : List Char → Prop) (hrest : Ends rest)
    (hpart : ∀ p ∈ parts, ∀ later, Ends later → Ends (p ++ later) ∧
      ∀ x v, Takes x later v → Takes (m x) (p ++ later) (p ++ v))
    (hmiss : ∀ x, Misses (m x) rest) (hk : Takes k rest found) :
    Takes (Match.star true m k) (parts.flatten ++ rest) (parts.flatten ++ found) := by
  -- Both at once, as a part has to end in front of all the parts behind it.
  have all : Ends (parts.flatten ++ rest) ∧
      Takes (Match.star true m k) (parts.flatten ++ rest) (parts.flatten ++ found) := by
    induction parts with
    | nil =>
      refine ⟨hrest, fun before => ?_⟩
      rw [List.flatten_nil, List.nil_append, star_eq hm]
      exact Takes.past (hmiss _) hk before
    | cons p parts ih =>
      obtain ⟨ends, takes⟩ := ih fun q hq => hpart q (List.mem_cons_of_mem p hq)
      have head := hpart p List.mem_cons_self _ ends
      rw [List.flatten_cons, List.append_assoc, List.append_assoc]
      refine ⟨head.1, fun before => ?_⟩
      rw [star_eq hm]
      exact Takes.into (head.2 _ _ takes) before
  exact all.2

/-- As many characters of the set as there are, in a row. What follows has to begin with another
character, or the greedy loop would go on. -/
theorem Takes.setStar {cs rest : List Char} (hcs : ∀ c ∈ cs, s.mem c = true)
    (hrest : ∀ c ∈ rest.head?, s.mem c = false) (hk : Takes k rest found) :
    Takes ((Regex.repeated 0 none true (.set s)).first k) (cs ++ rest) (cs ++ found) := by
  have takes := Takes.star (Regex.reads_set s) (cs.map fun c => [c]) (fun _ => True) trivial
    (fun p hp later _ => ?_) (fun x => Misses.set hrest) hk
  · rw [← List.flatMap_def, List.flatMap_singleton'] at takes
    exact takes
  · obtain ⟨c, hc, rfl⟩ := List.mem_map.1 hp
    exact ⟨trivial, fun x v hx => Takes.set (hcs c hc) hx⟩

/-- At least one, which has to be there, and then as many as there are. -/
theorem Takes.setPlus {c : Char} {cs rest : List Char} (hcs : ∀ d ∈ c :: cs, s.mem d = true)
    (hrest : ∀ c ∈ rest.head?, s.mem c = false) (hk : Takes k rest found) :
    Takes ((Regex.repeated 1 none true (.set s)).first k) (c :: cs ++ rest) (c :: cs ++ found) := by
  have tail := Takes.setStar (fun d hd => hcs d (List.mem_cons_of_mem c hd)) hrest hk
  exact Takes.set (hcs c List.mem_cons_self) tail

end Match

end Descent
