/-
Chains.

A chain is a row of terms with a separator between each two, like `1 + 2 - 3`. It is
kept as its first term and the links that follow, each a separator and the term behind
it. It is put together, and shown, as two rows: a loop goes through the links and puts each
term behind the terms and each separator behind the separators. A round of that loop adds
one to either row, so there is one separator fewer than there are terms, and none when there
is no term (`length_separators`). The links lose nothing by this: any two such rows are those
of one chain (`Rows.Balanced.exists_collect`).

A chain of operands and operators is evaluated by one of two folds, which agree when
the operation is associative.
-/

set_option autoImplicit false

namespace Descent

/-- Terms with separators between them. -/
inductive Chain (τ σ : Type) where
  | empty
  /-- The first term, and each further one behind its separator. -/
  | links (head : τ) (tail : List (σ × τ))
deriving DecidableEq, Repr

namespace Chain

variable {τ σ : Type}

instance : Inhabited (Chain τ σ) := ⟨empty⟩

/-- The terms, from left to right. -/
def terms : Chain τ σ → List τ
  | empty => []
  | links head tail => head :: tail.map Prod.snd

/-- The separators, from left to right. -/
def separators : Chain τ σ → List σ
  | empty => []
  | links _ tail => tail.map Prod.fst

/-- The number of terms. -/
def length (c : Chain τ σ) : Nat :=
  c.terms.length

/-- The chain has no term. -/
def isEmpty : Chain τ σ → Bool
  | empty => true
  | links .. => false

end Chain

/-! ## Two rows -/

/-- A row of terms and a row of separators. -/
structure Rows (τ σ : Type) where
  terms : List τ
  separators : List σ

namespace Rows

variable {τ σ : Type}

/-- A separator and the term behind it, each put behind those in its row. -/
def push (r : Rows τ σ) (link : σ × τ) : Rows τ σ :=
  ⟨r.terms ++ [link.2], r.separators ++ [link.1]⟩

/-- The loop that puts the rows together, round by round from the first term on. -/
def collect (head : τ) (tail : List (σ × τ)) : Rows τ σ :=
  tail.foldl push ⟨[head], []⟩

/-- There is one separator fewer than there are terms. -/
def Balanced (r : Rows τ σ) : Prop :=
  r.separators.length + 1 = r.terms.length

/-- A round keeps the balance, since it makes both rows longer by one. -/
theorem Balanced.push {r : Rows τ σ} (h : r.Balanced) (link : σ × τ) : (r.push link).Balanced := by
  unfold Balanced at h ⊢
  simp [Rows.push, h]

/-- By induction on the rounds: each pushes one entry to either row, so the difference of one stays.
-/
theorem Balanced.foldl {r : Rows τ σ} (h : r.Balanced) (tail : List (σ × τ)) :
    (tail.foldl Rows.push r).Balanced := by
  induction tail generalizing r with
  | nil => exact h
  | cons link tail ih => exact ih (h.push link)

/-- The loop starts with one term and no separator, which are balanced. -/
theorem balanced_collect (head : τ) (tail : List (σ × τ)) : (collect head tail).Balanced :=
  have first : Balanced (⟨[head], []⟩ : Rows τ σ) := rfl
  first.foldl tail

/-- What the rounds add are the two halves of the links, in their order. -/
theorem foldl_push (r : Rows τ σ) (tail : List (σ × τ)) :
    tail.foldl push r = ⟨r.terms ++ tail.map Prod.snd, r.separators ++ tail.map Prod.fst⟩ := by
  induction tail generalizing r with
  | nil => simp
  | cons link tail ih =>
    rw [List.foldl_cons, ih]
    simp [push]

/-- What the loop has collected, in terms of the links that it went through. -/
theorem collect_eq (head : τ) (tail : List (σ × τ)) :
    collect head tail = ⟨head :: tail.map Prod.snd, tail.map Prod.fst⟩ :=
  foldl_push ⟨[head], []⟩ tail

/-- Balanced rows come out of the loop, and out of nothing else than their own links: so it makes no
difference which of the two forms a chain is kept in. -/
theorem Balanced.exists_collect {r : Rows τ σ} (h : r.Balanced) :
    ∃ head tail, r = collect head tail ∧
      ∀ head' tail', r = collect head' tail' → head' = head ∧ tail' = tail := by
  obtain ⟨_ | ⟨head, others⟩, separators⟩ := r
  · cases h
  · replace h : separators.length = others.length := Nat.succ.inj h
    refine ⟨head, separators.zip others, ?_, fun head' tail' same => ?_⟩
    · rw [collect_eq, List.map_snd_zip (by omega), List.map_fst_zip (by omega)]
    · rw [collect_eq] at same
      cases same
      exact ⟨rfl, List.zip_of_prod rfl rfl⟩

end Rows

namespace Chain

variable {τ σ : Type}

/-- The rows as they are put together. -/
def rows : Chain τ σ → Rows τ σ
  | empty => ⟨[], []⟩
  | links head tail => .collect head tail

/-- The terms and the separators of a chain are what the loop makes of its links. -/
theorem rows_eq (c : Chain τ σ) : c.rows = ⟨c.terms, c.separators⟩ := by
  cases c with
  | empty => rfl
  | links head tail => exact Rows.collect_eq head tail

/-- One separator fewer than there are terms, and none where there is no term. -/
theorem length_separators (c : Chain τ σ) : c.separators.length = c.terms.length - 1 := by
  cases c with
  | empty => rfl
  | links head tail =>
    have balanced := Rows.balanced_collect head tail
    rw [Rows.collect_eq] at balanced
    exact (Nat.sub_eq_of_eq_add balanced.symm).symm

/-! ## Folds -/

/-- The fold of a term and the links behind it, the last link on the outside. -/
def foldLinksLeft (combine : τ → τ → σ → τ) (head : τ) (tail : List (σ × τ)) : τ :=
  tail.foldl (fun lhs (separator, rhs) => combine lhs rhs separator) head

/-- The fold of a term and the links behind it, the first link on the outside. -/
def foldLinksRight (combine : τ → τ → σ → τ) : τ → List (σ × τ) → τ
  | head, [] => head
  | head, (separator, next) :: tail =>
    combine head (foldLinksRight combine next tail) separator

/-- `((t₀ s₀ t₁) s₁ t₂) …`, where `combine` is given the two sides and then the separator.
The empty chain has no fold. -/
def foldLeft (combine : τ → τ → σ → τ) : Chain τ σ → Option τ
  | empty => none
  | links head tail => some (foldLinksLeft combine head tail)

/-- `t₀ s₀ (t₁ s₁ (t₂ …))`, where `combine` is given the two sides and then the separator.
The empty chain has no fold. -/
def foldRight (combine : τ → τ → σ → τ) : Chain τ σ → Option τ
  | empty => none
  | links head tail => some (foldLinksRight combine head tail)

end Chain

end Descent
