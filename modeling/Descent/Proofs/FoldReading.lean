/-
What a left fold reads.

A chain that is folded from the left is written as a term, or as such a chain with a
separator and a term behind it (`Chain.Folded`): the way that operators of one rank are
written, where the left one binds first. A parser reads such a chain from its first term
on, so the reading goes along the links and only the fold turns to the left again.

Where a term and a separator are read just as they are written, so is the chain, provided
that a term may end before each separator and no separator stands behind the chain
(`Rule.Meets.chainLeft_complete`).
-/
import Descent.Proofs.ChainReading

set_option autoImplicit false

namespace Descent

variable {Γ : Scope} {α τ σ : Type}

/-! ## Chains with their left fold -/

/-- A row can be made longer at its end too. A left fold is written so, with its last link
outermost. -/
theorem Row.append_singleton {P : List Char → α → Prop} {cs u : List Char} {as : List α} {a : α}
    (has : Row P cs as) (ha : P u a) : Row P (cs ++ u) (as ++ [a]) := by
  induction has with
  | nil => simpa using Row.cons ha .nil
  | cons hb _ ih =>
    rw [List.append_assoc]
    exact .cons hb ih

namespace Chain

variable {T : List Char → τ → Prop} {S : List Char → σ → Prop} {combine : τ → τ → σ → τ}

/-- A chain, as it is written, with its left fold. -/
inductive Folded (T : List Char → τ → Prop) (S : List Char → σ → Prop)
    (combine : τ → τ → σ → τ) : List Char → τ → Prop
  | term {u : List Char} {t : τ} (ht : T u t) : Folded T S combine u t
  | link {u v w : List Char} {lhs rhs : τ} {s : σ} (hlhs : Folded T S combine u lhs) (hs : S v s)
      (hrhs : T w rhs) : Folded T S combine (u ++ (v ++ w)) (combine lhs rhs s)

/-- From the first term on, such a chain is a row of links. -/
theorem Folded.exists_row {cs : List Char} {t : τ} (h : Folded T S combine cs t) :
    ∃ (u written : List Char) (head : τ) (tail : List (σ × τ)), cs = u ++ written ∧ T u head ∧
      Row (Link T S) written tail ∧ foldLinksLeft combine head tail = t := by
  induction h with
  | @term u t ht => exact ⟨u, [], t, [], (List.append_nil u).symm, ht, .nil, rfl⟩
  | @link u v w _ rhs s _ hs hrhs ih =>
    obtain ⟨first, written, head, tail, rfl, hhead, htail, rfl⟩ := ih
    refine ⟨first, written ++ (v ++ w), head, tail ++ [(s, rhs)], List.append_assoc _ _ _, hhead,
      htail.append_singleton (.mk hs hrhs), ?_⟩
    rw [foldLinksLeft, List.foldl_append]
    rfl

end Chain

/-! ## Reading them -/

/-- How the parts of a chain are read: terms where they may end, in texts up to some length,
and separators. A term may end before a separator. -/
structure ReadsChain (limits : Limits) (ρ : Environment Γ) (bound : Nat) (term : Rule Γ τ)
    (separator : Rule Γ σ) (T : List Char → τ → Prop) (S : List Char → σ → Prop)
    (Ends : List Char → Prop) : Prop where
  term : ∀ {u rest : List Char} {t : τ}, T u t → Ends rest → (u ++ rest).length ≤ bound →
    term.Meets limits ρ (u ++ rest) (· = some (t, rest))
  separator : ∀ {v rest : List Char} {s : σ}, S v s →
    separator.Meets limits ρ (v ++ rest) (· = some (s, rest))
  ends : ∀ {v rest : List Char} {s : σ}, S v s → Ends (v ++ rest)
  nonempty : ∀ s, ¬ S [] s

namespace Rule.Meets

variable {limits : Limits} {ρ : Environment Γ} {bound : Nat} {term : Rule Γ τ}
  {separator : Rule Γ σ} {T : List Char → τ → Prop} {S : List Char → σ → Prop}
  {Ends : List Char → Prop} {cs rest : List Char}

/-- A separator ends where the term behind it begins, and the term where the next separator does. -/
theorem link_complete (h : ReadsChain limits ρ bound term separator T S Ends) {l : σ × τ}
    (hl : Chain.Link T S cs l) (hrest : Ends rest) (hbound : (cs ++ rest).length ≤ bound) :
    (Rule.link term separator).Meets limits ρ (cs ++ rest) (· = some (l, rest)) := by
  obtain @⟨v, w, s, t, hs, ht⟩ := hl
  rw [List.append_assoc] at hbound ⊢
  have shorter : (w ++ rest).length ≤ bound := by
    rw [List.length_append] at hbound
    omega
  exact bind_some (h.separator hs) (bind_some (h.term ht hrest shorter) (pure rfl))

/-- By induction on the links. What stands behind a link begins with a separator or is the rest, so
a term may end there either way. -/
theorem links_complete (h : ReadsChain limits ρ bound term separator T S Ends)
    {links : List (σ × τ)} (hlinks : Row (Chain.Link T S) cs links) (hrest : Ends rest)
    (stop : separator.Meets limits ρ rest (· = none)) (hbound : (cs ++ rest).length ≤ bound)
    {n : Nat} (hn : (cs ++ rest).length < n) :
    Ends (cs ++ rest) ∧ (Behaviour.repeatedly ((Rule.link term separator).run limits ρ) n).Meets
      (cs ++ rest) (· = some (links, rest)) := by
  -- Both at once, as a term has to end in front of the links behind it.
  induction hlinks generalizing n with
  | nil =>
    obtain ⟨n, rfl⟩ : ∃ i, n = i + 1 := ⟨n - 1, by omega⟩
    exact ⟨hrest, .repeatedly (bind_none stop) (fun _ => rfl) fun _ _ heq => by cases heq⟩
  | @cons u more l links hl _ ih =>
    obtain ⟨n, rfl⟩ : ∃ i, n = i + 1 := ⟨n - 1, by omega⟩
    -- A link has a separator, which is some text, so the rounds that are left suffice.
    have progress : 0 < u.length := by
      obtain @⟨v, w, s, t, hs, _⟩ := hl
      have : v ≠ [] := by
        rintro rfl
        exact h.nonempty s hs
      have := List.length_pos_iff.2 this
      rw [List.length_append]
      omega
    rw [List.append_assoc] at hbound hn ⊢
    have shorter : (u ++ (more ++ rest)).length = u.length + (more ++ rest).length :=
      List.length_append
    obtain ⟨ends, others⟩ := ih (n := n) (by omega) (by omega)
    have first := link_complete h hl ends hbound
    refine ⟨?_, .repeatedly first (fun heq => by cases heq) fun l' rest' heq => ?_⟩
    · obtain ⟨hs, _⟩ := hl
      rw [List.append_assoc]
      exact h.ends hs
    · cases heq
      refine others.mono fun o ho => ?_
      rw [ho]
      rfl

/-- **A left fold is read** as it is written, where nothing stands behind it that it could go
on with. -/
theorem chainLeft_complete (h : ReadsChain limits ρ bound term separator T S Ends)
    (rounds : bound < limits.rounds) {combine : τ → τ → σ → τ} {t : τ}
    (hcs : Chain.Folded T S combine cs t) (hrest : Ends rest)
    (stop : separator.Meets limits ρ rest (· = none)) (hbound : (cs ++ rest).length ≤ bound) :
    (Rule.chainLeft term separator combine).Meets limits ρ (cs ++ rest) (· = some (t, rest)) := by
  obtain ⟨u, written, head, tail, rfl, hhead, htail, rfl⟩ := hcs.exists_row
  rw [List.append_assoc] at hbound ⊢
  have shorter : (written ++ rest).length ≤ bound := by
    rw [List.length_append] at hbound
    omega
  obtain ⟨ends, links⟩ := links_complete h htail hrest stop shorter
    (Nat.lt_of_le_of_lt shorter rounds)
  have chain : (term.chain separator).Meets limits ρ (u ++ (written ++ rest))
      (· = some (.links head tail, rest)) := by
    refine chain_links (h.term hhead ends hbound) (fun heq => by cases heq) fun t rest' heq => ?_
    cases heq
    exact links.mono fun o ho => ⟨tail, rest, ho, rfl⟩
  exact bind_some chain (pure rfl)

end Rule.Meets

end Descent
