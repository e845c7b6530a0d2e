/-
What the folds make of a chain.

A fold joins the terms of a chain two by two, with the separators that stand between them. How
it does so is seen best where joining builds a tree (`Grouping`): both folds build one that is
read from left to right as the chain is, and they differ in the side on which it grows. Any
other fold is the value of that tree (`Chain.folds_in_order`).

A chain shows its terms and its separators in two rows, one of which is longer. The left fold
sets the first term apart and the right fold the last, and what remains of the terms is as long
as the row of separators, so nothing is left over when the two are gone through side by side.

On which side the tree grows makes no difference to its value just where the operation is
associative (`Chain.foldLeft_eq_foldRight_iff`). There the two parsers that are made from the folds
agree as well, whichever way they end.
-/
import Descent.Proofs.ChainRun

set_option autoImplicit false

namespace Descent

variable {Γ : Scope} {τ σ υ : Type}

/-! ## Trees over a chain -/

/-- Terms, joined two by two with a separator. -/
inductive Grouping (τ σ : Type) where
  | term (t : τ)
  | joined (lhs rhs : Grouping τ σ) (separator : σ)
deriving DecidableEq, Repr

namespace Grouping

/-- What comes out where joining is to combine. -/
def value (combine : τ → τ → σ → τ) : Grouping τ σ → τ
  | term t => t
  | joined lhs rhs s => combine (lhs.value combine) (rhs.value combine) s

/-- The terms and separators from left to right. -/
def inOrder : Grouping τ σ → List (τ ⊕ σ)
  | term t => [.inl t]
  | joined lhs rhs s => lhs.inOrder ++ .inr s :: rhs.inOrder

/-- On the right of each separator stands a single term. -/
def BindsLeft : Grouping τ σ → Prop
  | term _ => True
  | joined lhs rhs _ => lhs.BindsLeft ∧ ∃ t, rhs = term t

/-- On the left of each separator stands a single term. -/
def BindsRight : Grouping τ σ → Prop
  | term _ => True
  | joined lhs rhs _ => (∃ t, lhs = term t) ∧ rhs.BindsRight

end Grouping

namespace Chain

/-! ## Two rows -/

/-- The first term, the first separator, the second term and so on, until both rows are used up. -/
def alternate : List τ → List σ → List (τ ⊕ σ)
  | t :: terms, s :: separators => .inl t :: .inr s :: alternate terms separators
  | terms, [] => terms.map .inl
  | [], separators => separators.map .inr

/-- The chain with other terms. -/
def mapTerms (f : τ → υ) : Chain τ σ → Chain υ σ
  | empty => empty
  | links head tail => links (f head) (tail.map (Prod.map id f))

/-- The row of terms is mapped term by term. So a fold over trees can be told from the terms of the
chain itself. -/
@[simp] theorem terms_mapTerms (f : τ → υ) (c : Chain τ σ) :
    (c.mapTerms f).terms = c.terms.map f := by
  cases c <;> simp [mapTerms, terms]

/-- The separators are not touched by it, so trees over a chain have the separators of the chain. -/
@[simp] theorem separators_mapTerms (f : τ → υ) (c : Chain τ σ) :
    (c.mapTerms f).separators = c.separators := by
  cases c <;> simp [mapTerms, separators]

/-- Behind the first term, the two rows alternate link by link. -/
theorem alternate_links (head : τ) (tail : List (σ × τ)) :
    alternate (head :: tail.map Prod.snd) (tail.map Prod.fst) =
      .inl head :: tail.flatMap fun l => [.inr l.1, .inl l.2] := by
  induction tail generalizing head with
  | nil => rfl
  | cons l tail ih => simp [alternate, ih l.2]

variable {combine : τ → τ → σ → τ}

/-- The terms behind the first one, side by side with the separators. -/
theorem foldLinksLeft_eq_foldl (combine : τ → τ → σ → τ) (head : τ) (tail : List (σ × τ)) :
    foldLinksLeft combine head tail =
      ((tail.map Prod.snd).zip (tail.map Prod.fst)).foldl
        (fun lhs (rhs, separator) => combine lhs rhs separator) head := by
  rw [List.zip_map', List.foldl_map]
  rfl

/-- The terms in front of the last one, side by side with the separators. -/
theorem foldLinksRight_eq_foldr (combine : τ → τ → σ → τ) {head last : τ} {tail : List (σ × τ)}
    {front : List τ} (split : head :: tail.map Prod.snd = front ++ [last]) :
    foldLinksRight combine head tail =
      (front.zip (tail.map Prod.fst)).foldr
        (fun (lhs, separator) rhs => combine lhs rhs separator) last := by
  -- The term in front of the links is the first of those in front of the last.
  induction tail generalizing head front with
  | nil =>
    obtain ⟨rfl, rfl⟩ : front = [] ∧ last = head := by
      cases front <;> simp_all
    rfl
  | cons l tail ih =>
    obtain ⟨s, next⟩ := l
    cases front with
    | nil => simp at split
    | cons first front =>
      obtain ⟨rfl, behind⟩ := List.cons.inj split
      rw [foldLinksRight, ih behind]
      rfl

/-! ## The trees that the folds build -/

/-- The tree that grows to the left by each link. -/
def leftward (lhs : Grouping τ σ) (tail : List (σ × τ)) : Grouping τ σ :=
  foldLinksLeft Grouping.joined lhs (tail.map (Prod.map id Grouping.term))

/-- The tree whose first link is on the outside. -/
def rightward (head : τ) (tail : List (σ × τ)) : Grouping τ σ :=
  foldLinksRight Grouping.joined (Grouping.term head) (tail.map (Prod.map id Grouping.term))

/-- The left fold joins the first link to what it has, and goes on with the tree that came out. -/
theorem leftward_cons (lhs : Grouping τ σ) (l : σ × τ) (tail : List (σ × τ)) :
    leftward lhs (l :: tail) = leftward (.joined lhs (.term l.2) l.1) tail := rfl

/-- The right fold keeps the first term back until the tree of all others is there. -/
theorem rightward_cons (head : τ) (l : σ × τ) (tail : List (σ × τ)) :
    rightward head (l :: tail) = .joined (.term head) (rightward l.2 tail) l.1 := rfl

/-- A further link is read behind all that is there. -/
theorem inOrder_leftward (lhs : Grouping τ σ) (tail : List (σ × τ)) :
    (leftward lhs tail).inOrder = lhs.inOrder ++ tail.flatMap fun l => [.inr l.1, .inl l.2] := by
  induction tail generalizing lhs with
  | nil => exact (List.append_nil _).symm
  | cons l tail ih => simp [leftward_cons, ih, Grouping.inOrder]

/-- The same of the other tree, where the first term stands alone on the left of all that follows.
-/
theorem inOrder_rightward (head : τ) (tail : List (σ × τ)) :
    (rightward head tail).inOrder = .inl head :: tail.flatMap fun l => [.inr l.1, .inl l.2] := by
  induction tail generalizing head with
  | nil => rfl
  | cons l tail ih => simp [rightward_cons, ih, Grouping.inOrder]

/-- By induction on the links: what is joined on the right is one term each time. -/
theorem bindsLeft_leftward {lhs : Grouping τ σ} (h : lhs.BindsLeft) (tail : List (σ × τ)) :
    (leftward lhs tail).BindsLeft := by
  induction tail generalizing lhs with
  | nil => exact h
  | cons l tail ih =>
    rw [leftward_cons]
    apply ih
    exact ⟨h, l.2, rfl⟩

/-- Here the single term is the one on the left, from the outermost link inwards. -/
theorem bindsRight_rightward (head : τ) (tail : List (σ × τ)) :
    (rightward head tail).BindsRight := by
  induction tail generalizing head with
  | nil => trivial
  | cons l tail ih =>
    rw [rightward_cons]
    exact ⟨⟨head, rfl⟩, ih l.2⟩

/-- To combine on the way is to combine in the end. -/
theorem value_leftward (lhs : Grouping τ σ) (tail : List (σ × τ)) :
    (leftward lhs tail).value combine = foldLinksLeft combine (lhs.value combine) tail := by
  induction tail generalizing lhs with
  | nil => rfl
  | cons l tail ih =>
    rw [leftward_cons, ih]
    rfl

/-- The same for the right fold. With this, what was shown of trees holds of every operation. -/
theorem value_rightward (head : τ) (tail : List (σ × τ)) :
    (rightward head tail).value combine = foldLinksRight combine head tail := by
  induction tail generalizing head with
  | nil => rfl
  | cons l tail ih =>
    rw [rightward_cons, Grouping.value, ih]
    rfl

/-- **A fold uses every term and every separator once, in order.** Without terms there are no
separators and no fold. Otherwise the left fold goes from the first term through the others, and
the right fold from the last term back through those in front of it, each with the separators at
their side, one for each. Where joining builds a tree, either tree is read as the chain is. On the
right of a separator of the left fold's tree, and on the left of one of the right fold's, stands a
single term. All other folds are the values of these trees. -/
theorem folds_in_order (c : Chain τ σ) :
    (c.terms = [] → c.separators = [] ∧
      ∀ combine, c.foldLeft combine = none ∧ c.foldRight combine = none) ∧
    (∀ first others, c.terms = first :: others → others.length = c.separators.length ∧
      ∀ combine, c.foldLeft combine = some ((others.zip c.separators).foldl
        (fun lhs (rhs, separator) => combine lhs rhs separator) first)) ∧
    (∀ front last, c.terms = front ++ [last] → front.length = c.separators.length ∧
      ∀ combine, c.foldRight combine = some ((front.zip c.separators).foldr
        (fun (lhs, separator) rhs => combine lhs rhs separator) last)) ∧
    (c.terms ≠ [] → ∃ left right : Grouping τ σ,
      (c.mapTerms .term).foldLeft .joined = some left ∧
      (c.mapTerms .term).foldRight .joined = some right ∧
      left.inOrder = alternate c.terms c.separators ∧
      right.inOrder = alternate c.terms c.separators ∧
      left.BindsLeft ∧ right.BindsRight ∧
      ∀ combine, c.foldLeft combine = some (left.value combine) ∧
        c.foldRight combine = some (right.value combine)) := by
  have fewer := c.length_separators
  cases c with
  | empty => simp [terms, separators, foldLeft, foldRight]
  | links head tail =>
    refine ⟨fun none => absurd none (List.cons_ne_nil _ _), ?_, ?_, fun _ => ?_⟩
    · intro first others split
      rw [split] at fewer
      obtain ⟨rfl, rfl⟩ := List.cons.inj split
      exact ⟨fewer.symm, fun combine => congrArg some (foldLinksLeft_eq_foldl combine head tail)⟩
    · intro front last split
      rw [split, List.length_append, List.length_singleton, Nat.add_sub_cancel] at fewer
      exact ⟨fewer.symm, fun combine => congrArg some (foldLinksRight_eq_foldr combine split)⟩
    · have single : (Grouping.term head : Grouping τ σ).BindsLeft := trivial
      refine ⟨leftward (.term head) tail, rightward head tail, rfl, rfl, ?_, ?_,
        bindsLeft_leftward single tail, bindsRight_rightward head tail, fun combine => ⟨?_, ?_⟩⟩
      · exact (inOrder_leftward _ tail).trans (alternate_links head tail).symm
      · exact (inOrder_rightward head tail).trans (alternate_links head tail).symm
      · exact congrArg some (value_leftward (.term head) tail).symm
      · exact congrArg some (value_rightward head tail).symm

/-- Of three terms, the left fold joins the first two before the third, and the right fold the last
two behind the first. -/
theorem folds_in_order_three :
    let c : Chain String Char := .links "8" [('-', "4"), ('+', "2")]
    let parenthesize (lhs rhs : String) (s : Char) : String :=
      "(" ++ lhs ++ s.toString ++ rhs ++ ")"
    c.terms = ["8", "4", "2"] ∧
      c.foldLeft parenthesize = some "((8-4)+2)" ∧ c.foldRight parenthesize = some "(8-(4+2))" ∧
      ∃ left right : Grouping String Char, left.BindsLeft ∧ right.BindsRight ∧
        left.inOrder = [.inl "8", .inr '-', .inl "4", .inr '+', .inl "2"] ∧
        right.inOrder = left.inOrder := by
  intro c parenthesize
  obtain ⟨-, fromFirst, fromLast, trees⟩ := folds_in_order c
  obtain ⟨left, right, -, -, readLeft, readRight, bindsLeft, bindsRight, -⟩ :=
    trees (List.cons_ne_nil _ _)
  refine ⟨rfl, ?_, ?_, left, right, bindsLeft, bindsRight, readLeft, readRight.trans readLeft.symm⟩
  · rw [(fromFirst "8" ["4", "2"] rfl).2]
    decide
  · rw [(fromLast ["8", "4"] "2" rfl).2]
    decide

/-! ## Associative operations -/

/-- Of two operations side by side, either may be carried out first. -/
def IsAssociative (combine : τ → τ → σ → τ) : Prop :=
  ∀ a b d s t, combine (combine a b s) d t = combine a (combine b d t) s

/-- The first operation may wait for those behind it. By induction on the links, for any two terms
to begin with. -/
theorem IsAssociative.foldLinksLeft_combine (h : IsAssociative combine) (a b : τ) (s : σ)
    (tail : List (σ × τ)) :
    foldLinksLeft combine (combine a b s) tail = combine a (foldLinksLeft combine b tail) s := by
  induction tail generalizing b with
  | nil => rfl
  | cons l tail ih =>
    obtain ⟨t, d⟩ := l
    calc foldLinksLeft combine (combine a b s) ((t, d) :: tail)
        = foldLinksLeft combine (combine (combine a b s) d t) tail := rfl
      _ = foldLinksLeft combine (combine a (combine b d t) s) tail := by rw [h]
      _ = combine a (foldLinksLeft combine (combine b d t) tail) s := ih (combine b d t)

/-- By induction on the links, from the lemma above: the operation between head and first link is
put off until the rest is joined. -/
theorem IsAssociative.foldLinksLeft_eq (h : IsAssociative combine) (head : τ)
    (tail : List (σ × τ)) :
    foldLinksLeft combine head tail = foldLinksRight combine head tail := by
  induction tail generalizing head with
  | nil => rfl
  | cons l tail ih =>
    obtain ⟨s, next⟩ := l
    calc foldLinksLeft combine head ((s, next) :: tail)
        = foldLinksLeft combine (combine head next s) tail := rfl
      _ = combine head (foldLinksLeft combine next tail) s :=
        h.foldLinksLeft_combine head next s tail
      _ = combine head (foldLinksRight combine next tail) s := by rw [ih]

/-- **The folds agree just where the operation is associative.** Chains of three terms tell. -/
theorem foldLeft_eq_foldRight_iff :
    (foldLeft combine : Chain τ σ → Option τ) = foldRight combine ↔ IsAssociative combine := by
  constructor
  · intro same a b d s t
    exact Option.some.inj (congrFun same (.links a [(s, b), (t, d)]))
  · intro h
    funext c
    cases c with
    | empty => rfl
    | links head tail => exact congrArg some (h.foldLinksLeft_eq head tail)

end Chain

namespace Parser

/-- **The two folding parsers agree where the operation is associative**, whatever they fold and
wherever they begin. They end in the same way, with the same value or none, and leave the same
state, the cursor and the slot included. -/
theorem chainLeft_run_eq_chainRight (term : Parser Γ τ) (separator : Parser Γ σ)
    {combine : τ → τ → σ → τ} (associative : Chain.IsAssociative combine) (limits : Limits)
    (ρ : Environment Γ) (s : State) :
    (term.chainLeft separator combine).rule.run limits ρ s =
      (term.chainRight separator combine).rule.run limits ρ s := by
  show (Rule.fold term.rule separator.rule (Chain.foldLeft combine)).run limits ρ s =
    (Rule.fold term.rule separator.rule (Chain.foldRight combine)).run limits ρ s
  rw [Chain.foldLeft_eq_foldRight_iff.2 associative]

/-- To write one text behind another, with a sign between them, is associative, though neither the
texts nor the signs may be exchanged. Behind the last term a sign is left. -/
theorem chainLeft_run_eq_chainRight_written :
    let term : Parser [] (List Char) := (charIn ['1', '2', '3']).map fun c => [c]
    let separator : Parser [] Char := charIn ['+', '-']
    let write (lhs rhs : List Char) (sign : Char) : List Char := lhs ++ sign :: rhs
    let s : State := State.start "1+2-3+"
    let v : State := { s with cursor := 5, failure := ⟨.unexpectedEnd, Cause.endOfText.message, 6⟩ }
    Chain.IsAssociative write ∧
      (term.chainLeft separator write).rule.run ⟨1, 3⟩ .undefined s =
        .done ['1', '+', '2', '-', '3'] v ∧
      (term.chainRight separator write).rule.run ⟨1, 3⟩ .undefined s =
        .done ['1', '+', '2', '-', '3'] v := by
  intro term separator write s v
  have associative : Chain.IsAssociative write := fun a b d s t => by simp [write]
  have left : (term.chainLeft separator write).rule.run ⟨1, 3⟩ .undefined s =
      .done ['1', '+', '2', '-', '3'] v := by decide +kernel
  exact ⟨associative, left,
    (chainLeft_run_eq_chainRight term separator associative ⟨1, 3⟩ .undefined s).symm.trans left⟩

end Parser

end Descent
