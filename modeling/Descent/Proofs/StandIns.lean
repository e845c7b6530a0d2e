/-
Where stand-ins are asked.

A rule is run in two environments, whose stand-ins do different things. The two runs are one
where the stand-ins do the same at every place that the runs ask them at. This is told in
two ways. A rule that only goes forward asks behind the place where it was begun, and nowhere
else (`Rule.Uses.run_congr`). For rules that are put together, one lemma for each way of doing
so tells from which places the parts are run.
-/
import Descent.Proofs.InStep

set_option autoImplicit false

namespace Descent

open Text

variable {Γ : Scope} {α β σ : Type} {limits : Limits}

/-! ## Behind a place -/

/-- From an offset on. Faults are not of interest here, nor is where failures are reported. -/
def Region.behind (text : List Char) (n : Nat) : Region where
  text := text
  cursor m := IsPlace m text = true ∧ n ≤ m
  other _ := True
  other_of_cursor _ _ := trivial
  calm := False
  isPlace_of_cursor h := h.elim

namespace Region.Holds

variable {text : List Char} {n : Nat} {s t : State}

/-- A state that stands at a place is within the region behind that place. -/
theorem behind (ahead : s.ahead?.isSome = true) : (Region.behind s.text s.cursor).Holds s :=
  ⟨rfl, ⟨ahead, Nat.le_refl _⟩, trivial, fun _ _ => trivial⟩

/-- Who goes forward within the region stays in it, as what was consumed ends at a place. -/
theorem through {u : List Char} (hs : (Region.behind text n).Holds s) (way : s.Through u t) :
    (Region.behind text n).Holds t := by
  have place : IsPlace t.cursor s.text = true := way.isPlace
  have further : n ≤ s.cursor + byteLength u := Nat.le_add_right_of_le hs.cursor.2
  rw [hs.text] at place
  rw [← way.cursor_eq] at further
  exact ⟨way.text_eq.trans hs.text, ⟨place, further⟩, trivial, fun _ _ => trivial⟩

/-- There is a way from the place on to each state in the region, as both are places of one text and
one is behind the other. -/
theorem exists_through (hs : s.ahead?.isSome = true)
    (ht : (Region.behind s.text s.cursor).Holds t) : ∃ u, s.Through u t := by
  have same : t.text = s.text := ht.text
  have place : IsPlace t.cursor s.text = true := ht.cursor.1
  rw [← same] at place
  obtain ⟨cs, here⟩ := Option.isSome_iff_exists.1 hs
  obtain ⟨ds, there⟩ := Option.isSome_iff_exists.1 place
  obtain ⟨front, htext, hfront⟩ := append_of_drop here
  obtain ⟨front', htext', hfront'⟩ := append_of_drop there
  rw [same, htext] at htext'
  have order : byteLength front ≤ byteLength front' := by
    rw [hfront, hfront']
    exact ht.cursor.2
  rcases List.append_eq_append_iff.1 htext' with ⟨u, rfl, rfl⟩ | ⟨u, rfl, rfl⟩
  · exact ⟨u, .mk same here there⟩
  · -- The way back is empty.
    have empty : u = [] := by
      rw [byteLength_append] at order
      exact byteLength_eq_zero_iff.1 (by omega)
    subst empty
    exact ⟨[], .mk same here there⟩

end Region.Holds

/-- Runs that go forward from behind the place are in step with themselves. -/
theorem Run.Advances.inStep {P : List Char → α → Prop} {E : Prop} {q : Run α} {text : List Char}
    {n : Nat} {halt : Halt} {s : State} (h : q.Advances s P E)
    (hs : (Region.behind text n).Holds s) : q.InStep (Region.behind text n) halt q := by
  cases h with
  | done way => exact .done _ (hs.through way)
  | failed way => exact .failed (hs.through way)
  | unfinished => exact .unfinished

/-- Only going forward: no offset is ever given, and patterns lead. -/
def Operation.Onward (o : Operation α) : Prop :=
  o.Leads ∧ ∀ s, o.given s = none

/-- A chain uses what its terms and separators use, and nothing beside that. -/
theorem Rule.Uses.chain {ok : {α : Type} → Operation α → Prop} {term : Rule Γ α}
    {separator : Rule Γ σ} (hterm : term.Uses ok) (hseparator : separator.Uses ok) :
    (Rule.chain term separator).Uses ok := by
  refine ⟨⟨hterm, fun head => ?_⟩, fun _ => trivial⟩
  cases head with
  | none => trivial
  | some head => exact ⟨⟨hseparator, fun _ => ⟨hterm, fun _ => trivial⟩⟩, fun _ => trivial⟩

/-- **What stand-ins do elsewhere does not matter**, where a rule only goes forward and they do
the same behind the place. -/
theorem Rule.Uses.run_congr {r : Rule Γ α} (h : r.Uses Operation.Onward) {text : List Char}
    {n : Nat} {ρ ρ' : Environment Γ}
    (hρ : ∀ halt, ρ.InStep (Region.behind text n) halt ρ') {s : State}
    (hs : (Region.behind text n).Holds s) : r.run limits ρ s = r.run limits ρ' s := by
  refine Run.InStep.eq_of_halts (R := Region.behind text n) fun halt => ?_
  rw [← runWith_run, ← runWith_run]
  refine h.inStep (fun o ho t ht => ?_) (.inl rfl) (.inl rfl) (hρ halt) s hs
  refine ht.operation (fun u cs ahead => ?_) (.inl ho.1) fun m hm => ?_
  · exact (ht.through (.advance ahead)).cursor
  · rw [ho.2 t] at hm
    cases hm

/-! ## One rule in two environments -/

section Environments

variable {P : List Char → α → Prop} {E : Prop} {ρ ρ' : Environment Γ} {s : State} {cs : List Char}

/-- Two rules in a row do the same in both environments, if the first does from here and the second
from wherever the first may lead to. -/
theorem Rule.bind_run_congr {P : List Char → β → Prop} {r : Rule Γ β} {next : β → Rule Γ α}
    (hr : r.Advances limits ρ' P E) (hs : s.ahead? = some cs)
    (first : r.run limits ρ s = r.run limits ρ' s)
    (second : ∀ u b t, s.Through u t → P u b →
      (next b).run limits ρ t = (next b).run limits ρ' t) :
    (r >>= next).run limits ρ s = (r >>= next).run limits ρ' s := by
  show (r.run limits ρ s).andThen _ = (r.run limits ρ' s).andThen _
  rw [first]
  have run := hr s cs hs
  generalize r.run limits ρ' s = q at run ⊢
  cases run with
  | done way h => exact second _ _ _ way h
  | failed => rfl
  | unfinished => rfl

/-- To take back a failure has nothing to do with stand-ins. -/
theorem Rule.atomically_run_congr {r : Rule Γ α} (h : r.run limits ρ s = r.run limits ρ' s) :
    (Rule.atomically r).run limits ρ s = (Rule.atomically r).run limits ρ' s := by
  show (r.run limits ρ s).orElse _ = (r.run limits ρ' s).orElse _
  rw [h]

/-- Nor has what is made of a result, which is a function of the value. -/
theorem Rule.map_run_congr {r : Rule Γ β} (h : r.run limits ρ s = r.run limits ρ' s) (f : β → α) :
    Rule.run limits (f <$> r) ρ s = Rule.run limits (f <$> r) ρ' s := by
  show (r.run limits ρ s).map f = (r.run limits ρ' s).map f
  rw [h]

/-- Three rules in a row. The last is to be the same everywhere, for it is only known to begin
behind the inside. -/
theorem Rule.bracket_run_congr {P : List Char → β → Prop} {before : Rule Γ β} {after : Rule Γ σ}
    {inside : Rule Γ α} (hbefore : before.Advances limits ρ' P E) (hs : s.ahead? = some cs)
    (first : before.run limits ρ s = before.run limits ρ' s)
    (second : ∀ u b t, s.Through u t → P u b → inside.run limits ρ t = inside.run limits ρ' t)
    (third : after.run limits ρ = after.run limits ρ') :
    (Rule.bracket before after inside).run limits ρ s =
      (Rule.bracket before after inside).run limits ρ' s := by
  refine atomically_run_congr (bind_run_congr hbefore hs first fun u b t way h => ?_)
  show (inside.run limits ρ t).andThen (fun a => Behaviour.andThen (after.run limits ρ) _) =
    (inside.run limits ρ' t).andThen (fun a => Behaviour.andThen (after.run limits ρ') _)
  rw [second u b t way h, third]
  rfl

/-- The other rule is tried from where the first one began, with something else in the slot. -/
theorem Rule.orElse_run_congr {r r' : Rule Γ α} (hr : r.Advances limits ρ' P E)
    (hs : s.ahead? = some cs) (first : r.run limits ρ s = r.run limits ρ' s)
    (second : ∀ t, s.Through [] t → r'.run limits ρ t = r'.run limits ρ' t) :
    (r.orElse r').run limits ρ s = (r.orElse r').run limits ρ' s := by
  show (Behaviour.attempt (Behaviour.rewind (r.run limits ρ)) s).andThen _ =
    (Behaviour.attempt (Behaviour.rewind (r.run limits ρ')) s).andThen _
  rw [Behaviour.attempt, Behaviour.attempt, Behaviour.rewind, Behaviour.rewind, first]
  have run := hr s cs hs
  generalize r.run limits ρ' s = q at run ⊢
  cases run with
  | done => rfl
  | @failed t u way =>
    simp only [Run.orElse, Run.map, Run.andThen, way.moveTo]
    exact second _ (way.back t.failure)
  | unfinished => rfl

/-- All alternatives are tried from where the choice began, so it is enough that each of them is the
same from there. -/
theorem Rule.oneOfLabeled_run_congr {alternatives : List (String × Rule Γ α)}
    (h : ∀ a ∈ alternatives, a.2.Advances limits ρ' P E) (hs : s.ahead? = some cs)
    (same : ∀ a ∈ alternatives, ∀ t, s.Through [] t → a.2.run limits ρ t = a.2.run limits ρ' t) :
    (Rule.oneOfLabeled alternatives).run limits ρ s =
      (Rule.oneOfLabeled alternatives).run limits ρ' s := by
  rw [Rule.oneOfLabeled]
  generalize alternatives.map Prod.fst = labels
  induction alternatives generalizing s cs with
  | nil => rfl
  | cons a alternatives ih =>
    refine orElse_run_congr (h a List.mem_cons_self) hs (same a List.mem_cons_self s (.stay hs))
      fun t ht => ?_
    obtain ⟨_, there⟩ := ht.arrives
    exact ih (fun b hb => h b (List.mem_cons_of_mem a hb)) there fun b hb w hw =>
      same b (List.mem_cons_of_mem a hb) w (ht.trans hw)

end Environments

end Descent
