/-
What rows and chains of things read.

Where each part of a repetition reads what it should, the whole reads such parts in a row
(`Row`), and a chain reads terms with separators between them (`Chain.Spelled`), as long as
no part reads nothing: that is what bounds the number of rounds. A separator that was read
without a term behind it is given back, so it is no part of what a chain has read.
-/
import Descent.Proofs.Reading
import Descent.Proofs.Blanks

set_option autoImplicit false

namespace Descent

open Text

variable {Γ : Scope} {α β τ σ : Type}

/-! ## Rows and chains as they are written -/

/-- Things in a row, each written as `P` says. -/
inductive Row (P : List Char → α → Prop) : List Char → List α → Prop
  | nil : Row P [] []
  | cons {u cs : List Char} {a : α} {as : List α} (ha : P u a) (has : Row P cs as) :
      Row P (u ++ cs) (a :: as)

namespace Chain

/-- A separator and the term behind it. -/
inductive Link (T : List Char → τ → Prop) (S : List Char → σ → Prop) : List Char → σ × τ → Prop
  | mk {u v : List Char} {s : σ} {t : τ} (hs : S u s) (ht : T v t) : Link T S (u ++ v) (s, t)

/-- Terms with separators between them, each written as `T` and `S` say. -/
inductive Spelled (T : List Char → τ → Prop) (S : List Char → σ → Prop) :
    List Char → Chain τ σ → Prop
  | empty : Spelled T S [] .empty
  | links {u cs : List Char} {head : τ} {tail : List (σ × τ)} (hhead : T u head)
      (htail : Row (Link T S) cs tail) : Spelled T S (u ++ cs) (.links head tail)

end Chain

/-- The rule that a chain repeats behind its first term. -/
def Rule.link (term : Rule Γ τ) (separator : Rule Γ σ) : Rule Γ (σ × τ) := do
  let s ← separator
  let t ← term
  return (s, t)

/-- With what is read of the text, the value is as `P` says. -/
def Reads (P : List Char → α → Prop) (cs : List Char) (o : Option (α × List Char)) : Prop :=
  ∀ a rest, o = some (a, rest) → ∃ u, cs = u ++ rest ∧ P u a

/-- What was read behind a front part was read with it. -/
theorem Reads.behind {P : List Char → α → Prop} {u rest : List Char}
    {o : Option (α × List Char)} (h : Reads (fun v => P (u ++ v)) rest o) :
    Reads P (u ++ rest) o := by
  intro a rest' heq
  obtain ⟨v, rfl, ha⟩ := h a rest' heq
  exact ⟨u ++ v, (List.append_assoc u v rest').symm, ha⟩

namespace Rule.Meets

variable {limits : Limits} {ρ : Environment Γ} {cs : List Char}

/-! ## Parts and sequences -/

/-- To give a value is to read nothing, so the value has to be one for the empty text. -/
theorem pure_reads {P : List Char → α → Prop} {a : α} (h : P [] a) :
    (Rule.pure a : Rule Γ α).Meets limits ρ cs (Reads P cs) := by
  refine pure fun b rest heq => ⟨[], ?_, ?_⟩
  · cases heq
    rfl
  · cases heq
    exact h

/-- What is read by two rules in a row is what both have read, one behind the other. The second is
asked about with the front part given. -/
theorem bind_reads {P : List Char → β → Prop} {P' : List Char → α → Prop} {r : Rule Γ β}
    {next : β → Rule Γ α} (h : r.Meets limits ρ cs (Reads P cs))
    (hnext : ∀ u rest b, cs = u ++ rest → P u b →
      (next b).Meets limits ρ rest (Reads (fun v => P' (u ++ v)) rest)) :
    (r >>= next).Meets limits ρ cs (Reads P' cs) := by
  refine bind h (fun _ a rest heq => by cases heq) fun b rest hread => ?_
  obtain ⟨u, rfl, hb⟩ := hread b rest rfl
  exact (hnext u rest b rfl hb).mono fun _ => Reads.behind

/-- A reading may be told less exactly, as when a token is put to use in a grammar that knows fewer
of its properties. -/
theorem mono_reads {P P' : List Char → α → Prop} {r : Rule Γ α}
    (h : r.Meets limits ρ cs (Reads P cs)) (hP : ∀ u a, P u a → P' u a) :
    r.Meets limits ρ cs (Reads P' cs) :=
  h.mono fun _ ho a rest heq =>
    let ⟨u, hu, ha⟩ := ho a rest heq
    ⟨u, hu, hP u a ha⟩

/-- The text of a mapped value is the text of the value. -/
theorem map_reads {P : List Char → β → Prop} {P' : List Char → α → Prop} {r : Rule Γ β}
    {f : β → α} (h : r.Meets limits ρ cs (Reads P cs)) (hP : ∀ u b, P u b → P' u (f b)) :
    Rule.Meets limits ρ (f <$> r) cs (Reads P' cs) :=
  bind_reads h fun u _ b _ hb => pure_reads (by simpa using hP u b hb)

/-- A pattern reads what it finds. That this stands at the beginning is asked for here, for a
pattern may find something elsewhere. -/
theorem matchPattern_reads {P : List Char → String → Prop} {p : Pattern}
    (h : ∀ found, p.find? cs = some found →
      (∃ rest, cs = found ++ rest) ∧ P found (String.ofList found)) :
    (Rule.matchPattern p : Rule Γ String).Meets limits ρ cs (Reads P cs) := by
  cases hfind : p.find? cs with
  | none => exact matchPattern_none hfind fun a rest heq => by cases heq
  | some found =>
    obtain ⟨⟨rest, hcs⟩, hP⟩ := h found hfind
    refine matchPattern hcs hfind fun a rest' heq => ?_
    cases heq
    exact ⟨found, hcs, hP⟩

/-- A literal reads its own text and no other, so its value adds nothing to what is known of it. -/
theorem literal_reads (expected : String) :
    (Rule.literal expected : Rule Γ String).Meets limits ρ cs
      (Reads (fun u _ => u = expected.toList) cs) := by
  by_cases h : ∃ rest, cs = expected.toList ++ rest
  · obtain ⟨rest, hcs⟩ := h
    refine literal hcs fun a rest' heq => ?_
    cases heq
    exact ⟨_, hcs, rfl⟩
  · exact literal_absent (fun rest hcs => h ⟨rest, hcs⟩) fun a rest heq => by cases heq

/-- What is skipped is white space, perhaps none. That it is all there is does not matter to a
grammar. -/
theorem skipBlanks_reads : (Rule.skipBlanks : Rule Γ String).Meets limits ρ cs
    (Reads (fun u _ => Blanks u) cs) := by
  refine skipBlanks fun a rest heq => ⟨cs.takeWhile isBlank, ?_, blanks_takeWhile cs⟩
  cases heq
  exact (List.takeWhile_append_dropWhile (p := isBlank)).symm

/-- Three readings in a row, of which the middle one has the value. The last may begin anywhere in
the text, for where the inside ends is not known before. -/
theorem bracket_reads {B : List Char → β → Prop} {A : List Char → σ → Prop}
    {I : List Char → α → Prop} {P : List Char → α → Prop} {before : Rule Γ β} {after : Rule Γ σ}
    {inside : Rule Γ α} (hbefore : before.Meets limits ρ cs (Reads B cs))
    (hinside : ∀ u rest b, cs = u ++ rest → B u b → inside.Meets limits ρ rest (Reads I rest))
    (hafter : ∀ rest, rest <:+ cs → after.Meets limits ρ rest (Reads A rest))
    (hP : ∀ u v w b a e, B u b → I v a → A w e → P (u ++ (v ++ w)) a) :
    (Rule.bracket before after inside).Meets limits ρ cs (Reads P cs) := by
  refine atomically (bind_reads hbefore fun u rest b hcs hb => ?_)
  refine bind_reads (hinside u rest b hcs hb) fun v rest' a hrest ha => ?_
  have suffix : rest' <:+ cs := ⟨u ++ v, by rw [hcs, hrest, List.append_assoc]⟩
  refine bind_reads (hafter rest' suffix) fun w _ e _ he => pure_reads ?_
  rw [List.append_nil]
  exact hP u v w b a e hb ha he

/-! ## Repetitions -/

/-- By induction on the rounds. Each part reads something, so the rounds do not run out before the
text does. -/
theorem many_reads {P : List Char → α → Prop} {r : Rule Γ α}
    (h : ∀ rest, rest <:+ cs → r.Meets limits ρ rest (Reads P rest)) (hP : ∀ a, ¬ P [] a)
    (hrounds : cs.length < limits.rounds) :
    (Rule.many r).Meets limits ρ cs (Reads (Row P) cs) := by
  -- For any number of rounds, as the induction goes down with it.
  suffices all : ∀ n, cs.length < n →
      (Behaviour.repeatedly (r.run limits ρ) n).Meets cs (Reads (Row P) cs) from all _ hrounds
  intro n hn
  clear hrounds
  induction n generalizing cs with
  | zero => omega
  | succ n ih =>
    refine Behaviour.Meets.repeatedly (h cs (List.suffix_refl cs)) (fun _ as rest heq => ?_)
      fun a rest hread => ?_
    · cases heq
      exact ⟨[], rfl, .nil⟩
    · obtain ⟨u, rfl, ha⟩ := hread a rest rfl
      -- Each part is some text, so the rounds that are left suffice for the rest.
      have progress : u ≠ [] := fun hu => hP a (hu ▸ ha)
      have shorter : rest.length < n := by
        have := List.length_pos_iff.2 progress
        rw [List.length_append] at hn
        omega
      have others := ih (fun rest' hrest' => h rest' (hrest'.trans (List.suffix_append u rest)))
        shorter
      refine others.mono fun o ho as rest' heq => ?_
      cases o with
      | none => cases heq
      | some o =>
        cases heq
        obtain ⟨v, hv, has⟩ := ho _ _ rfl
        refine ⟨u ++ v, ?_, .cons ha has⟩
        rw [hv, List.append_assoc]

/-! ## Chains -/

section Chains

variable {T : List Char → τ → Prop} {S : List Char → σ → Prop} {term : Rule Γ τ}
  {separator : Rule Γ σ}

/-- Where it succeeds, a link has read a separator and the term right behind it. Of a failure
nothing is said, as it is given back. -/
theorem link_reads (hterm : ∀ rest, rest <:+ cs → term.Meets limits ρ rest (Reads T rest))
    (hseparator : ∀ rest, rest <:+ cs → separator.Meets limits ρ rest (Reads S rest))
    {rest : List Char} (hrest : rest <:+ cs) :
    (link term separator).Meets limits ρ rest (Reads (Chain.Link T S) rest) := by
  refine bind_reads (hseparator rest hrest) fun v rest' s heq hs => ?_
  have suffix : rest' <:+ rest := heq ▸ List.suffix_append v rest'
  refine bind_reads (hterm rest' (suffix.trans hrest)) fun w _ t _ ht => pure_reads ?_
  rw [List.append_nil]
  exact .mk hs ht

/-- The first term is read by an attempt, and the links behind it are a row. A link is never empty,
as its separator is not. -/
theorem chain1_reads (hterm : ∀ rest, rest <:+ cs → term.Meets limits ρ rest (Reads T rest))
    (hseparator : ∀ rest, rest <:+ cs → separator.Meets limits ρ rest (Reads S rest))
    (hS : ∀ s, ¬ S [] s) (hrounds : cs.length < limits.rounds) :
    (Rule.chain1 term separator).Meets limits ρ cs (Reads (Chain.Spelled T S) cs) := by
  refine atomically ?_
  -- The first term, or a failure, where it does not matter where the attempt was left.
  let R (o : Option (Option τ × List Char)) : Prop :=
    ∀ head rest, o = some (some head, rest) → ∃ u, cs = u ++ rest ∧ T u head
  have first : (Rule.attempt term).Meets limits ρ cs R := by
    refine attempt (hterm cs (List.suffix_refl cs)) (fun _ rest head rest' heq => by cases heq)
      fun a rest hread head rest' heq => ?_
    cases heq
    exact hread a rest rfl
  refine bind first (fun _ a rest heq => by cases heq) fun head rest hread => ?_
  cases head with
  | none => exact fail fun a rest heq => by cases heq
  | some head =>
    obtain ⟨u, rfl, hu⟩ := hread head rest rfl
    have within {rest' : List Char} (h : rest' <:+ rest) : rest' <:+ u ++ rest :=
      h.trans (List.suffix_append u rest)
    have tail : (Rule.many (link term separator)).Meets limits ρ rest
        (Reads (Row (Chain.Link T S)) rest) := by
      refine many_reads (fun rest' hrest' => ?_) (fun link hlink => ?_) ?_
      · exact link_reads hterm hseparator (within hrest')
      · -- A link without any text would have a separator without any.
        generalize hnil : ([] : List Char) = cs at hlink
        cases hlink with
        | @mk v w s t hs ht =>
          rw [(List.append_eq_nil_iff.1 hnil.symm).1] at hs
          exact hS s hs
      · rw [List.length_append] at hrounds
        omega
    have links : Rule.Meets limits ρ (do return .links head (← Rule.many (link term separator)))
        rest (Reads (fun v => Chain.Spelled T S (u ++ v)) rest) := by
      refine bind_reads tail fun v _ links _ hlinks => pure_reads ?_
      rw [List.append_nil]
      exact .links hu hlinks
    exact links.mono fun _ => Reads.behind

/-- The chain that may be empty reads nothing where there is no first term. -/
theorem chain_reads (hterm : ∀ rest, rest <:+ cs → term.Meets limits ρ rest (Reads T rest))
    (hseparator : ∀ rest, rest <:+ cs → separator.Meets limits ρ rest (Reads S rest))
    (hS : ∀ s, ¬ S [] s) (hrounds : cs.length < limits.rounds) :
    (Rule.chain term separator).Meets limits ρ cs (Reads (Chain.Spelled T S) cs) := by
  let P (u : List Char) (c : Option (Chain τ σ)) : Prop := Chain.Spelled T S u (c.getD .empty)
  have tried : (Rule.tryParse (Rule.chain1 term separator)).Meets limits ρ cs (Reads P cs) := by
    refine tryParse (chain1_reads hterm hseparator hS hrounds) (fun _ c rest heq => ?_)
      fun c rest hread c' rest' heq => ?_
    · cases heq
      exact ⟨[], rfl, .empty⟩
    · cases heq
      exact hread c rest rfl
  refine bind_reads tried fun u _ c _ hc => pure_reads ?_
  rw [List.append_nil]
  exact hc

/-- Without a first term there is no chain, and nothing is read. -/
theorem chain_none (h : term.Meets limits ρ cs (· = none)) :
    (Rule.chain term separator).Meets limits ρ cs (· = some (.empty, cs)) := by
  let R (o : Option (Option τ × List Char)) : Prop := ∃ rest, o = some (none, rest)
  have first : (Rule.attempt term).Meets limits ρ cs R :=
    attempt h (fun _ rest => ⟨rest, rfl⟩) fun _ _ heq => by cases heq
  have chain1 : (Rule.chain1 term separator).Meets limits ρ cs (· = none) := by
    refine atomically (bind first (fun ⟨_, heq⟩ => by cases heq) fun head rest ⟨_, heq⟩ => ?_)
    cases heq
    exact fail rfl
  have tried : (Rule.tryParse (Rule.chain1 term separator)).Meets limits ρ cs
      (· = some (none, cs)) := tryParse chain1 (fun _ => rfl) fun _ _ heq => by cases heq
  exact bind_some tried (pure rfl)

/-- With a first term, a chain goes on to links, of which there may be none. -/
theorem chain_links {R : Option (τ × List Char) → Prop} {Q : Option (Chain τ σ × List Char) → Prop}
    (h : term.Meets limits ρ cs R) (hterm : ¬ R none)
    (hlinks : ∀ head rest, R (some (head, rest)) →
      (Rule.many (link term separator)).Meets limits ρ rest
        fun o => ∃ links rest', o = some (links, rest') ∧ Q (some (.links head links, rest'))) :
    (Rule.chain term separator).Meets limits ρ cs Q := by
  -- The first term is there, so none of the attempts around it ends without a value.
  let F (o : Option (Option τ × List Char)) : Prop :=
    ∃ head rest, o = some (some head, rest) ∧ R (some (head, rest))
  have first : (Rule.attempt term).Meets limits ρ cs F :=
    attempt h (fun hR => absurd hR hterm) fun head rest hR => ⟨head, rest, rfl, hR⟩
  have chain1 : (Rule.chain1 term separator).Meets limits ρ cs
      fun o => ∃ c rest, o = some (c, rest) ∧ Q (some (c, rest)) := by
    refine atomically (bind first (fun ⟨_, _, heq, _⟩ => by cases heq)
      fun head rest ⟨_, _, heq, hR⟩ => ?_)
    cases heq
    refine bind (hlinks _ _ hR) (fun ⟨_, _, heq, _⟩ => by cases heq)
      fun links rest' ⟨_, _, heq, hQ⟩ => ?_
    cases heq
    exact pure ⟨_, _, rfl, hQ⟩
  have tried : (Rule.tryParse (Rule.chain1 term separator)).Meets limits ρ cs
      fun o => ∃ c rest, o = some (some c, rest) ∧ Q (some (c, rest)) := by
    refine tryParse chain1 (fun ⟨_, _, heq, _⟩ => by cases heq) fun c rest ⟨_, _, heq, hQ⟩ => ?_
    cases heq
    exact ⟨c, rest, rfl, hQ⟩
  refine bind tried (fun ⟨_, _, heq, _⟩ => by cases heq) fun c rest ⟨_, _, heq, hQ⟩ => ?_
  cases heq
  exact pure hQ

end Chains

end Rule.Meets

end Descent
