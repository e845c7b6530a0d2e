/-
How runs end.

A run that is put together ends as one of its parts does. Of each way to put runs together
this file says exactly when the whole ends with a value, and when with a failure, in terms of
how the parts ended. So a run is taken apart from its end, and the operators on behaviours are
opened here and nowhere else.

A run that goes back has to find its place. The attempts that do so end in a failure only
where the text, as it was left, has a place there.
-/
import Descent.Rule.Basic

set_option autoImplicit false

namespace Descent

open Text

variable {Γ : Scope} {α β : Type}

deriving instance DecidableEq for Run

namespace Run

/-- The run ended by itself, with a value or with a failure: there was no fault, and it was not
given up. -/
def Ended : Run α → Prop
  | done .. | failed _ => True
  | fault | unfinished => False

variable {q : Run α} {t v : State}

/-- To have ended, spelled out: with a value and a state, or with a state alone. -/
theorem ended_iff : q.Ended ↔ (∃ a t, q = .done a t) ∨ ∃ t, q = .failed t := by
  cases q <;> simp [Ended]

/-! ## One run after another -/

/-- Both runs came to a value, the second from the state that the first had left. -/
theorem andThen_eq_done_iff {next : α → Behaviour β} {b : β} :
    q.andThen next = .done b v ↔ ∃ a t, q = .done a t ∧ next a t = .done b v := by
  constructor
  · intro h
    cases q with
    | done a t => exact ⟨a, t, rfl, h⟩
    | failed | fault | unfinished => cases h
  · rintro ⟨a, t, rfl, h⟩
    exact h

/-- The first one failed, and then the second was not run, or the second one failed behind it. -/
theorem andThen_eq_failed_iff {next : α → Behaviour β} :
    q.andThen next = .failed v ↔ q = .failed v ∨ ∃ a t, q = .done a t ∧ next a t = .failed v := by
  constructor
  · intro h
    cases q with
    | done a t => exact .inr ⟨a, t, rfl, h⟩
    | failed t =>
      cases h
      exact .inl rfl
    | fault | unfinished => cases h
  · rintro (rfl | ⟨a, t, rfl, h⟩)
    · rfl
    · exact h

/-- A result is mapped, and the state is that of the run itself. -/
theorem map_eq_done_iff {f : α → β} {b : β} :
    q.map f = .done b v ↔ ∃ a, q = .done a v ∧ f a = b := by
  rw [map, andThen_eq_done_iff]
  constructor
  · rintro ⟨a, t, rfl, ⟨⟩⟩
    exact ⟨a, rfl, rfl⟩
  · rintro ⟨a, rfl, rfl⟩
    exact ⟨a, v, rfl, rfl⟩

/-- Mapping is not reached where the run fails, so the failures are the same. -/
theorem map_eq_failed_iff {f : α → β} : q.map f = .failed v ↔ q = .failed v := by
  rw [map, andThen_eq_failed_iff]
  simp

/-- The value is that of the first run, or that of the rescue, which sees the state that the failure
left. -/
theorem orElse_eq_done_iff {rescue : Behaviour α} {a : α} :
    q.orElse rescue = .done a v ↔ q = .done a v ∨ ∃ t, q = .failed t ∧ rescue t = .done a v := by
  cases q <;> simp [orElse]

/-- Only where the rescue fails too is there a failure, and then it is the failure of the rescue. -/
theorem orElse_eq_failed_iff {rescue : Behaviour α} :
    q.orElse rescue = .failed v ↔ ∃ t, q = .failed t ∧ rescue t = .failed v := by
  cases q <;> simp [orElse]

end Run

/-! ## Going back -/

namespace State

variable {s t : State} {n : Nat}

/-- A move sets the cursor and leaves all else. That its goal is a place of the text is all that it
asks for. -/
theorem moveTo_eq_done_iff {u : Unit} :
    moveTo n s = .done u t ↔ IsPlace n s.text = true ∧ { s with cursor := n } = t := by
  rw [moveTo]
  split
  · next place => simp [place]
  · next place => simp [place]

/-- Where there is no such place the move is a fault, which nothing can be rescued from. -/
theorem moveTo_ne_failed : moveTo n s ≠ .failed t := by
  rw [moveTo]
  split <;> exact fun failed => by cases failed

end State

/-! ## Attempts -/

namespace Behaviour

variable {b : Behaviour α} {s v : State} {a : α}

/-- What is attempted comes to a value anyhow: to that of the run, or to none where it failed. -/
theorem attempt_eq_done_iff {o : Option α} : attempt b s = .done o v ↔
    (∃ a, o = some a ∧ b s = .done a v) ∨ o = none ∧ b s = .failed v := by
  rw [attempt]
  cases b s with
  | done a t => simp [Run.map, Run.andThen, Run.orElse, eq_comm, ← and_assoc]
  | failed t => simp [Run.map, Run.andThen, Run.orElse, eq_comm]
  | fault | unfinished => simp [Run.map, Run.andThen, Run.orElse]

/-- A failure is what an attempt turns into a value, so the only runs of it without one are those
that never ended. -/
theorem attempt_ne_failed : attempt b s ≠ .failed v := by
  rw [attempt, ne_eq, Run.orElse_eq_failed_iff]
  rintro ⟨t, -, failed⟩
  cases failed

/-- Of what is taken back on failure, the values are those that there are anyway. -/
theorem atomically_eq_done_iff : atomically b s = .done a v ↔ b s = .done a v := by
  rw [atomically, Run.orElse_eq_done_iff, or_iff_left]
  rintro ⟨t, -, h⟩
  obtain ⟨-, w, -, failed⟩ := Run.andThen_eq_done_iff.1 h
  cases failed

/-- Where it fails, the cursor is back and the failure is reported there. -/
theorem atomically_eq_failed_iff : atomically b s = .failed v ↔
    ∃ t, b s = .failed t ∧ IsPlace s.cursor t.text = true ∧
      v = { t with cursor := s.cursor, failure := { t.failure with position := s.cursor } } := by
  rw [atomically, Run.orElse_eq_failed_iff]
  refine exists_congr fun t => and_congr_right fun _ => ?_
  rw [Run.andThen_eq_failed_iff, or_iff_right State.moveTo_ne_failed]
  constructor
  · rintro ⟨_, w, moved, failed⟩
    obtain ⟨place, rfl⟩ := State.moveTo_eq_done_iff.1 moved
    cases failed
    exact ⟨place, rfl⟩
  · rintro ⟨place, rfl⟩
    exact ⟨(), _, State.moveTo_eq_done_iff.2 ⟨place, rfl⟩, rfl⟩

end Behaviour

end Descent
