/-
Two runs side by side.

Two states are *aligned* when the second reads the text of the first behind some front
part, and stands at the same place of what both share. Nothing is asked of their slots.
This file says when two behaviours stay aligned (`Behaviour.Tied`): they end in the same
way and with the same value, aligned again, and a failure that one of them records is
recorded by the other as well, as many bytes further on as the front part is long.

So what the slots held before comes through in one case only, when both runs succeed
and neither recorded anything. That is the invariant of the whole argument: from the
first failure on, the slots *agree*, and until then they are as they were
(`State.SlotsTied`). A behaviour that fails without writing all three fields of the slot
would break it.

Each operator on behaviours keeps two runs tied, by one lemma each.
-/
import Descent.Rule.Basic

set_option autoImplicit false

namespace Descent

open Text

variable {α β : Type}

/-! ## Aligned states -/

/-- The failure as it is reported so many bytes further on. -/
def Failure.shift (n : Nat) (f : Failure) : Failure :=
  { f with position := n + f.position }

namespace State

/-- The second state has the text of the first behind `front`, and stands at the same place
of it. -/
structure Aligned (front : List Char) (s t : State) : Prop where
  text : t.text = front ++ s.text
  cursor : t.cursor = byteLength front + s.cursor
  bookmarks : t.bookmarks = s.bookmarks.map fun (name, place) => (name, byteLength front + place)

/-- The slots hold one failure, reported at one place of what both texts share. -/
def SlotsAgree (front : List Char) (s t : State) : Prop :=
  t.failure = s.failure.shift (byteLength front)

/-- The slots agree, or both still hold what they held. -/
def SlotsTied (front : List Char) (f g : Failure) (s t : State) : Prop :=
  SlotsAgree front s t ∨ s.failure = f ∧ t.failure = g

variable {front : List Char} {f g : Failure} {s t : State}

/-- Runs that do nothing are tied by the second case, with whatever the slots hold. -/
theorem slotsTied_self : SlotsTied front s.failure t.failure s t :=
  .inr ⟨rfl, rfl⟩

/-- Slots that agreed from the start agree in any case. -/
theorem SlotsTied.agree (h : SlotsTied front f g s t) (hfg : g = f.shift (byteLength front)) :
    SlotsAgree front s t := by
  rcases h with h | ⟨hs, ht⟩
  · exact h
  · rw [SlotsAgree, hs, ht, hfg]

namespace Aligned

/-- What lies ahead is the same text in both, so all that depends on it alone goes the same way.
Both are at no place together. -/
theorem ahead? (h : Aligned front s t) : t.ahead? = s.ahead? := by
  rw [State.ahead?, State.ahead?, h.text, h.cursor, dropBytes_append_add]

/-- The ends coincide: the front part lies before everything that is shared. -/
theorem isAtEnd (h : Aligned front s t) : t.isAtEnd = s.isAtEnd := by
  rw [State.isAtEnd, State.isAtEnd, h.text, h.cursor, byteLength_append, decide_eq_decide]
  omega

/-- Both cursors move by as many bytes as were consumed, which keeps the distance between them. -/
theorem advance (h : Aligned front s t) (consumed : List Char) :
    Aligned front (s.advance consumed) (t.advance consumed) where
  text := h.text
  cursor := by
    rw [State.advance, State.advance, h.cursor, Nat.add_assoc]
  bookmarks := h.bookmarks

/-- Recording a failure touches neither text nor cursor, so states are aligned behind it that were
so before. -/
theorem record (h : Aligned front s t) (cause : Cause) :
    Aligned front (s.record cause) (t.record cause) :=
  ⟨h.text, h.cursor, h.bookmarks⟩

/-- Failing writes the whole slot, so after it the slots agree, whatever they held. The position
alone differs, by the front part. -/
theorem slotsAgree_record (h : Aligned front s t) (cause : Cause) :
    SlotsAgree front (s.record cause) (t.record cause) := by
  rw [SlotsAgree, State.record, State.record, h.cursor]
  rfl

end Aligned

end State

/-! ## Tied runs -/

/-- Two runs that began with `f` and `g` in their slots ended alike. -/
inductive Run.Tied (front : List Char) (f g : Failure) : Run α → Run α → Prop
  | done (a : α) {s t : State} (aligned : s.Aligned front t)
      (slots : State.SlotsTied front f g s t) : Tied front f g (.done a s) (.done a t)
  | failed {s t : State} (aligned : s.Aligned front t) (slots : State.SlotsAgree front s t) :
      Tied front f g (.failed s) (.failed t)
  | fault : Tied front f g .fault .fault
  | unfinished : Tied front f g .unfinished .unfinished

namespace Run.Tied

variable {front : List Char} {f g : Failure} {q r : Run α}

/-- Runs that go on from tied states are tied from further back. -/
theorem trans {s t : State} (h : Run.Tied front s.failure t.failure q r)
    (slots : State.SlotsTied front f g s t) : Run.Tied front f g q r := by
  cases h with
  | done a aligned later =>
    refine .done a aligned ?_
    rcases later with agree | ⟨hs, ht⟩
    · exact .inl agree
    · rw [State.SlotsTied, State.SlotsAgree, hs, ht]
      exact slots
  | failed aligned agree => exact .failed aligned agree
  | fault => exact .fault
  | unfinished => exact .unfinished

/-- The second run is asked about in the middle, where the slots are tied to what they held at the
very start and need not agree yet. -/
theorem andThen {next next' : α → Behaviour β} (h : Run.Tied front f g q r)
    (hnext : ∀ a s t, s.Aligned front t → State.SlotsTied front f g s t →
      Run.Tied front f g (next a s) (next' a t)) :
    Run.Tied front f g (q.andThen next) (r.andThen next') := by
  cases h with
  | done a aligned slots => exact hnext a _ _ aligned slots
  | failed aligned agree => exact .failed aligned agree
  | fault => exact .fault
  | unfinished => exact .unfinished

/-- A rescue begins behind a failure, and there the slots agree. So the rescue may read what was
recorded. -/
theorem orElse {rescue rescue' : Behaviour α} (h : Run.Tied front f g q r)
    (hrescue : ∀ s t, s.Aligned front t → State.SlotsAgree front s t →
      Run.Tied front f g (rescue s) (rescue' t)) :
    Run.Tied front f g (q.orElse rescue) (r.orElse rescue') := by
  cases h with
  | done a aligned slots => exact .done a aligned slots
  | failed aligned agree => exact hrescue _ _ aligned agree
  | fault => exact .fault
  | unfinished => exact .unfinished

/-- A value is mapped in both runs alike, without a change of state. -/
theorem map (h : Run.Tied front f g q r) (k : α → β) :
    Run.Tied front f g (q.map k) (r.map k) :=
  h.andThen fun a _ _ aligned slots => .done (k a) aligned slots

end Run.Tied

namespace State.Aligned

variable {front : List Char} {f g : Failure} {s t : State}

/-- An offset into the one text is a place just where it is one in the other. -/
theorem moveTo (h : Aligned front s t) (slots : SlotsTied front f g s t) (position : Nat) :
    Run.Tied front f g (State.moveTo position s)
      (State.moveTo (byteLength front + position) t) := by
  have same : IsPlace (byteLength front + position) t.text = IsPlace position s.text := by
    rw [IsPlace, IsPlace, h.text, dropBytes_append_add]
  rw [State.moveTo, State.moveTo, same]
  by_cases place : IsPlace position s.text = true
  · rw [if_pos place, if_pos place]
    exact .done () ⟨h.text, rfl, h.bookmarks⟩ slots
  · rw [if_neg place, if_neg place]
    exact .fault

end State.Aligned

/-! ## Tied behaviours -/

/-- From aligned states the behaviours give tied runs. Where a failure is *held*, the slots
have to agree from the start. -/
def Behaviour.Tied (front : List Char) (held : Bool) (b c : Behaviour α) : Prop :=
  ∀ s t : State, s.Aligned front t → (held = true → State.SlotsAgree front s t) →
    Run.Tied front s.failure t.failure (b s) (c t)

namespace Behaviour.Tied

variable {front : List Char} {held : Bool} {b c : Behaviour α}

/-- What is tied whatever the slots hold is tied where they agree. So parts that never look at the
slot may stand where it is held. -/
theorem hold (h : Tied front held b c) : Tied front true b c :=
  fun s t aligned agree => h s t aligned fun _ => agree rfl

/-- In the middle of two runs that began with `f` and `g` in their slots. -/
theorem goOn (h : Tied front held b c) {f g : Failure} {s t : State} (aligned : s.Aligned front t)
    (slots : State.SlotsTied front f g s t)
    (agree : held = true → g = f.shift (byteLength front)) :
    Run.Tied front f g (b s) (c t) :=
  (h s t aligned fun hh => slots.agree (agree hh)).trans slots

/-- Giving a value leaves states aligned and slots as they were. -/
theorem pure (a : α) : Tied front held (Behaviour.pure a) (Behaviour.pure a) :=
  fun _ _ aligned _ => .done a aligned State.slotsTied_self

/-- A failure may be recorded with slots of any kind before it, as all three fields are written. -/
theorem fail (cause : Cause) :
    Tied front held (State.fail cause : Behaviour α) (State.fail cause) :=
  fun _ _ aligned _ => .failed (aligned.record cause) (aligned.slotsAgree_record cause)

/-- Raising a failure again is safe only where there was one. -/
theorem raise : Tied front true (Behaviour.raise : Behaviour α) Behaviour.raise :=
  fun _ _ aligned agree => .failed aligned (agree rfl)

/-- One behaviour after the other, with the same asked of the slots for both. -/
theorem andThen {d e : Behaviour β} {next next' : β → Behaviour α} (h : Tied front held d e)
    (hnext : ∀ a, Tied front held (next a) (next' a)) :
    Tied front held (Behaviour.andThen d next) (Behaviour.andThen e next') := by
  intro s t aligned agree
  refine (h s t aligned agree).andThen fun a s' t' aligned' slots => ?_
  exact (hnext a).goOn aligned' slots agree

/-- A failure that becomes a missing value leaves both states as they were when it was recorded,
aligned and with slots that agree. -/
theorem attempt (h : Tied front held b c) :
    Tied front held (Behaviour.attempt b) (Behaviour.attempt c) := by
  intro s t aligned agree
  refine ((h s t aligned agree).map some).orElse fun s' t' aligned' agree' => ?_
  exact .done none aligned' (.inl agree')

/-- On failure both cursors go back to where they were, and there they were aligned. The slots keep
what was recorded. -/
theorem rewind (h : Tied front held b c) :
    Tied front held (Behaviour.rewind b) (Behaviour.rewind c) := by
  intro s t aligned agree
  refine (h s t aligned agree).orElse fun s' t' aligned' agree' => ?_
  rw [aligned.cursor]
  -- Moving leaves the slot alone, so what is raised again is the failure that was recorded.
  have moved := aligned'.moveTo (State.slotsTied_self (s := s') (t := t')) s.cursor
  refine (moved.andThen fun _ s'' t'' aligned'' slots => ?_).trans (.inl agree')
  exact .failed aligned'' (slots.agree agree')

/-- The same where the failure is reported from there as well: on both sides that is the same place
of what the texts share. -/
theorem atomically (h : Tied front held b c) :
    Tied front held (Behaviour.atomically b) (Behaviour.atomically c) := by
  intro s t aligned agree
  refine (h s t aligned agree).orElse fun s' t' aligned' agree' => ?_
  rw [aligned.cursor]
  have moved := aligned'.moveTo (State.slotsTied_self (s := s') (t := t')) s.cursor
  refine (moved.andThen fun _ s'' t'' aligned'' slots => ?_).trans (.inl agree')
  refine .failed ⟨aligned''.text, aligned''.cursor, aligned''.bookmarks⟩ ?_
  rw [State.SlotsAgree, State.relocate, State.relocate, slots.agree agree']
  rfl

/-- A rescue may look at the failure that called for it: it begins behind one, so its slots agree.
Only the rescue is granted that. -/
theorem handle {d e : Behaviour β} {next next' : β → Behaviour α} (h : Tied front held d e)
    (hnext : ∀ a, Tied front held (next a) (next' a)) (hrescue : Tied front true b c) :
    Tied front held (Behaviour.handle d next b) (Behaviour.handle e next' c) := by
  intro s t aligned agree
  have first := h s t aligned agree
  rw [Behaviour.handle, Behaviour.handle]
  generalize d s = q, e t = r at first
  cases first with
  | done a aligned' slots => exact (hnext a).goOn aligned' slots agree
  | failed aligned' agree' => exact (hrescue _ _ aligned' fun _ => agree').trans (.inl agree')
  | fault => exact .fault
  | unfinished => exact .unfinished

/-- The reason is put in place of another on both sides, and the positions, which differ by the
front part, stay. -/
theorem rephrase (h : Tied front held b c) (reason : String) :
    Tied front held (Behaviour.rephrase reason b) (Behaviour.rephrase reason c) := by
  intro s t aligned agree
  refine (h s t aligned agree).orElse fun s' t' aligned' agree' => ?_
  refine .failed ⟨aligned'.text, aligned'.cursor, aligned'.bookmarks⟩ ?_
  rw [State.SlotsAgree, State.rephrase, State.rephrase, agree']
  rfl

/-- By induction on the rounds. A round that fails ends the loop in both runs, for they end in the
same way. -/
theorem repeatedly (h : Tied front held b c) (rounds : Nat) :
    Tied front held (Behaviour.repeatedly b rounds) (Behaviour.repeatedly c rounds) := by
  induction rounds with
  | zero => exact fun _ _ _ _ => .unfinished
  | succ rounds ih =>
    intro s t aligned agree
    have first := h s t aligned agree
    rw [Behaviour.repeatedly, Behaviour.repeatedly]
    generalize b s = q, c t = r at first
    cases first with
    | done a aligned' slots => exact (ih.goOn aligned' slots agree).map _
    | failed aligned' agree' =>
      rw [aligned.cursor]
      exact (aligned'.moveTo (.inl agree') s.cursor).map _
    | fault => exact .fault
    | unfinished => exact .unfinished

/-- By induction on the rounds, from tied states each time, so that the first failure may come in
any of them. -/
theorem iterate {step step' : β → Behaviour (β ⊕ α)}
    (h : ∀ x, Tied front held (step x) (step' x)) (rounds : Nat) (x : β) :
    Tied front held (Behaviour.iterate step rounds x) (Behaviour.iterate step' rounds x) := by
  induction rounds generalizing x with
  | zero => exact fun _ _ _ _ => .unfinished
  | succ rounds ih =>
    intro s t aligned agree
    rw [Behaviour.iterate, Behaviour.iterate]
    refine (h x s t aligned agree).andThen fun y s' t' aligned' slots => ?_
    cases y with
    | inl x => exact (ih x).goOn aligned' slots agree
    | inr a => exact (Tied.pure a).goOn aligned' slots agree

/-- The bookmarks kept outside are those that come back, so those kept inside need not be aligned.
-/
theorem enclosed (h : Tied front held b c) :
    Tied front held (Behaviour.enclosed b) (Behaviour.enclosed c) := by
  intro s t aligned agree
  have inside := h { s with bookmarks := [] } { t with bookmarks := [] }
    ⟨aligned.text, aligned.cursor, rfl⟩ agree
  refine (inside.andThen fun a s' t' aligned' slots => ?_).orElse fun s' t' aligned' agree' => ?_
  · exact .done a ⟨aligned'.text, aligned'.cursor, aligned.bookmarks⟩ slots
  · exact .failed ⟨aligned'.text, aligned'.cursor, aligned.bookmarks⟩ agree'

/-- Two definitions that keep their stand-ins tied have tied fixed points, by induction on the depth
that both may reach. -/
theorem fixed {define define' : Behaviour α → Behaviour α}
    (h : ∀ b c, Tied front held b c → Tied front held (define b) (define' c)) (depth : Nat) :
    Tied front held (Behaviour.fixed define depth) (Behaviour.fixed define' depth) := by
  induction depth with
  | zero => exact fun _ _ _ _ => .unfinished
  | succ depth ih => exact h _ _ ih

end Behaviour.Tied

end Descent
