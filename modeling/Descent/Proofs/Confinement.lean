/-
What a rule may look at.

A rule is confined by a choice of operations when it uses no others, makes no copy of
the state, and raises a failure again only where one is at hand (`Rule.Within`). Two
choices matter. A *blind* rule never asks for the last failure. A *local* rule asks,
besides, for nothing that depends on what lies before the cursor: neither for offsets
nor for the text as a whole.

The induction over rules is done once, for any choice of operations that keep two runs
tied (`Rule.Within.tied`). Blind rules give tied runs on one text, local rules also on a
text with more in front.
-/
import Descent.Proofs.SideBySide
import Descent.Parser.Combinators

set_option autoImplicit false

namespace Descent

open Text

variable {Γ : Scope} {α β τ σ : Type}

/-! ## Confined rules -/

namespace Operation

/-- Does not ask for the last failure. -/
def isBlind {α : Type} : Operation α → Bool
  | .lastFailure => false
  | _ => true

/-- Asks only for what lies ahead. -/
def isLocal {α : Type} : Operation α → Bool
  | .wholeText | .position | .moveTo _ | .returnTo _ | .lastFailure | .locate _ => false
  | _ => true

end Operation

/-- A choice of operations. -/
abbrev Permission : Type 1 := {α : Type} → Operation α → Bool

namespace Rule

/-- The rule uses permitted operations only, copies no state, and raises a failure again
only where it is given one, which is where `held` is set. -/
def Within (may : Permission) : (held : Bool) → {Γ : Scope} → {α : Type} → Rule Γ α → Prop
  | _, _, _, pure _ | _, _, _, fail _ | _, _, _, reference _ => True
  | held, _, _, bind r next => r.Within may held ∧ ∀ a, (next a).Within may held
  | _, _, _, operation o => may o = true
  | held, _, _, attempt r | held, _, _, rewind r | held, _, _, atomically r
  | held, _, _, rephrase _ r | held, _, _, many r | held, _, _, enclosed r
  | held, _, _, recursive r | held, _, _, outlived r => r.Within may held
  | held, _, _, handle r next rescue =>
    r.Within may held ∧ (∀ a, (next a).Within may held) ∧ rescue.Within may true
  | held, _, _, raise => held = true
  | held, _, _, iterate step _ => ∀ b, (step b).Within may held
  | _, _, _, speculate _ => False

/-- The rule does not ask for the last failure, and copies no state. -/
def Blind (r : Rule Γ α) : Prop :=
  r.Within Operation.isBlind false

/-- The rule is blind, and does not ask for what lies before the cursor. -/
def Local (r : Rule Γ α) : Prop :=
  r.Within Operation.isLocal false

end Rule

/-! ## The operations -/

namespace State

variable {front : List Char} {f g : Failure} {s t : State}

/-- What lies ahead is the same in both, so one function of it decides for both runs, or there is a
fault in both. -/
theorem Aligned.withAhead {k k' : List Char → Run α} (h : Aligned front s t)
    (hk : ∀ rest, Run.Tied front f g (k rest) (k' rest)) :
    Run.Tied front f g (s.withAhead k) (t.withAhead k') := by
  rw [State.withAhead, State.withAhead, h.ahead?]
  cases s.ahead? with
  | some rest => exact hk rest
  | none => exact .fault

/-- Two aligned states on one text differ in their slots at most. -/
theorem Aligned.eq_of_nil (h : Aligned [] s t) : t = { s with failure := t.failure } := by
  have bookmarks : s.bookmarks = t.bookmarks := by
    rw [h.bookmarks, byteLength_nil]
    simp
  have cursor : t.cursor = s.cursor := by rw [h.cursor, byteLength_nil, Nat.zero_add]
  have text : t.text = s.text := h.text
  cases t
  simp_all

/-- A state is aligned with itself when only the slot is another. This is how two runs are begun
that differ in their past failures. -/
theorem aligned_withFailure (s : State) (g : Failure) : Aligned [] s { s with failure := g } where
  text := rfl
  cursor := by rw [byteLength_nil, Nat.zero_add]
  bookmarks := by simp

end State

namespace Operation

variable {front : List Char}

/-- The operation keeps any two runs tied that have `front` between them. -/
def Tied (front : List Char) (o : Operation α) : Prop :=
  Behaviour.Tied front false o.run o.run

/-- Looking at the next character gives the same one, or fails at places that belong together. -/
private theorem tied_peek : Behaviour.Tied front false State.peek State.peek := by
  intro s t aligned agree
  refine aligned.withAhead fun rest => ?_
  cases rest with
  | nil => exact Behaviour.Tied.fail .endOfText s t aligned agree
  | cons c _ => exact .done c aligned State.slotsTied_self

/-- One case for each operation that is permitted. Those that tell an offset or the whole text are
not, since there the two runs would differ. -/
theorem tied_of_isLocal {o : Operation α} (h : o.isLocal = true) : o.Tied front := by
  have fails (cause : Cause) {α : Type} :
      Behaviour.Tied front false (State.fail cause : Behaviour α) (State.fail cause) :=
    .fail cause
  cases o with
  | peek => exact tied_peek
  | char =>
    intro s t aligned agree
    refine (tied_peek s t aligned agree).andThen fun c s' t' aligned' slots => ?_
    exact .done c (aligned'.advance [c]) slots
  | literal expected =>
    -- Both causes of failure are told from what lies ahead, which is one text in both runs.
    intro s t aligned agree
    refine aligned.withAhead fun rest => ?_
    dsimp only
    by_cases found : expected.toList.isPrefixOf rest = true
    · rw [if_pos found, if_pos found]
      exact .done expected (aligned.advance _) State.slotsTied_self
    · rw [if_neg found, if_neg found]
      split
      · exact fails _ s t aligned agree
      · exact fails _ s t aligned agree
  | matchPattern pattern =>
    intro s t aligned agree
    refine aligned.withAhead fun rest => ?_
    cases pattern.find? rest with
    | some found => exact .done _ (aligned.advance found) State.slotsTied_self
    | none => exact fails _ s t aligned agree
  | ending =>
    intro s t aligned agree
    refine aligned.withAhead fun rest => ?_
    cases rest with
    | nil => exact .done () aligned State.slotsTied_self
    | cons c _ => exact fails _ s t aligned agree
  | skipBlanks =>
    intro s t aligned _
    exact aligned.withAhead fun rest => .done _ (aligned.advance _) State.slotsTied_self
  | rest =>
    intro s t aligned _
    exact aligned.withAhead fun rest => .done _ aligned State.slotsTied_self
  | isAtEnd =>
    intro s t aligned _
    show Run.Tied front s.failure t.failure (.done s.isAtEnd s) (.done t.isAtEnd t)
    rw [aligned.isAtEnd]
    exact .done _ aligned State.slotsTied_self
  | bookmark name =>
    intro s t aligned _
    refine .done () ⟨aligned.text, aligned.cursor, ?_⟩ State.slotsTied_self
    rw [aligned.bookmarks, aligned.cursor]
    rfl
  | wholeText | position | moveTo | returnTo | lastFailure | locate => simp [isLocal] at h

/-- On one text, offsets mean the same in both runs. -/
theorem tied_of_isBlind {o : Operation α} (h : o.isBlind = true) : o.Tied [] := by
  have moves (position : Nat) :
      Behaviour.Tied [] false (State.moveTo position) (State.moveTo position) := by
    intro s t aligned _
    have moved := aligned.moveTo (State.slotsTied_self (s := s) (t := t)) position
    rwa [byteLength_nil, Nat.zero_add] at moved
  cases o with
  | wholeText =>
    intro s t aligned _
    rw [aligned.eq_of_nil]
    exact .done _ (s.aligned_withFailure _) State.slotsTied_self
  | position =>
    intro s t aligned _
    rw [aligned.eq_of_nil]
    exact .done _ (s.aligned_withFailure _) State.slotsTied_self
  | moveTo offset => exact moves offset
  | returnTo name =>
    intro s t aligned agree
    have same : t.bookmarked name = s.bookmarked name := by rw [aligned.eq_of_nil]; rfl
    have moved := moves (s.bookmarked name) s t aligned agree
    rw [Operation.run, State.returnTo, State.returnTo, same]
    exact moved
  | locate offset =>
    intro s t aligned _
    rw [aligned.eq_of_nil]
    rw [Operation.run, State.locate, State.locate]
    cases Location.ofOffset? s.text offset with
    | some l => exact .done l (s.aligned_withFailure _) State.slotsTied_self
    | none => exact .fault
  | lastFailure => simp [isBlind] at h
  | peek | char | literal | matchPattern | ending | skipBlanks | rest | isAtEnd | bookmark =>
    exact tied_of_isLocal rfl

end Operation

/-! ## Rules -/

/-- Each stand-in is undefined in both environments, or does tied things in them. -/
def Environment.Tied (front : List Char) (held : Bool) (ρ ρ' : Environment Γ) : Prop :=
  ∀ (α : Type) (v : StandIn Γ α), Option.Rel (Behaviour.Tied front held) (ρ α v) (ρ' α v)

namespace Environment.Tied

variable {front : List Char} {held : Bool} {ρ ρ' : Environment Γ}

/-- Where nothing is in scope, nothing can come apart. Parsers that are run on a text begin like
this. -/
theorem undefined : Tied front held (Environment.undefined : Environment Γ) .undefined :=
  fun _ _ => .none

/-- A stand-in is added on both sides at once, with what it does in the one run tied to what it does
in the other. -/
theorem extend (h : Tied front held ρ ρ') {b b' : Option (Behaviour α)}
    (hb : Option.Rel (Behaviour.Tied front held) b b') :
    Tied front held (ρ.extend b) (ρ'.extend b') := by
  intro α v
  cases v with
  | here => exact hb
  | outer v => exact h α v

/-- Stand-ins that keep runs tied whatever the slots hold may be asked in a rescue as well. -/
theorem hold (h : Tied front held ρ ρ') : Tied front true ρ ρ' := by
  intro α v
  have hv := h α v
  generalize ρ α v = b, ρ' α v = b' at hv ⊢
  cases hv with
  | none => exact .none
  | some tied => exact .some tied.hold

end Environment.Tied

/-- What a confined rule does keeps two runs tied as far as its operations do. -/
theorem Rule.Within.tied {may : Permission} {front : List Char}
    (hmay : ∀ {α : Type} (o : Operation α), may o = true → o.Tied front) (limits : Limits)
    {r : Rule Γ α} {held : Bool} (h : r.Within may held) {ρ ρ' : Environment Γ}
    (hρ : ρ.Tied front held ρ') : Behaviour.Tied front held (r.run limits ρ) (r.run limits ρ') := by
  -- For both values of `held` at once, as the rescue of a handler holds a failure.
  induction r generalizing held with
  | pure a => exact .pure a
  | bind r next ihr ihnext => exact (ihr h.1 hρ).andThen fun a => ihnext a (h.2 a) hρ
  | fail cause => exact .fail cause
  | operation o => exact fun s t aligned agree => hmay o h s t aligned (by simp)
  | attempt r ih => exact (ih h hρ).attempt
  | rewind r ih => exact (ih h hρ).rewind
  | atomically r ih => exact (ih h hρ).atomically
  | handle r next rescue ihr ihnext ihrescue =>
    exact (ihr h.1 hρ).handle (fun a => ihnext a (h.2.1 a) hρ) (ihrescue h.2.2 hρ.hold)
  | raise =>
    cases (show held = true from h)
    exact .raise
  | rephrase reason r ih => exact (ih h hρ).rephrase reason
  | many r ih => exact (ih h hρ).repeatedly limits.rounds
  | iterate step b ih => exact .iterate (fun b => ih b (h b) hρ) limits.rounds b
  | speculate r ih => exact h.elim
  | enclosed r ih => exact (ih h hρ).enclosed
  | recursive body ih =>
    exact .fixed (fun b c hbc => ih h (hρ.extend (.some hbc))) limits.depth
  | reference v =>
    have hv := hρ _ v
    rw [Rule.run, Rule.run]
    generalize ρ _ v = b, ρ' _ v = b' at hv ⊢
    cases hv with
    | none => exact .fail .undefined
    | some tied => exact tied
  | outlived r ih => exact ih h (hρ.extend .none)

end Descent
