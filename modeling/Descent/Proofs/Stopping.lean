/-
Loops that stop.

A repetition goes on as long as its rule succeeds. If each success leads further along the text,
there can only be as many as there are bytes left, and so the repetition stops, provided each of
its attempts does. It makes no difference how far an attempt gets that fails, as that is taken
back. A chain repeats its links, and a link leads further if the term in it does and the separator
does not lead back.

A run stops when limits can be found with which it is not given up (`Rule.Stops`). Larger limits
make no difference then (`Rule.run_eq_of_le`), so the limits for the parts of a run can be had
together, and stopping goes from the parts to the whole.

A run that stops may still come to a fault, in going back to an offset that is no place. If the
parts keep to places there is none, and the loop ends by itself.
-/
import Descent.Proofs.Approximation
import Descent.Proofs.ChainRun
import Descent.Proofs.InStep

set_option autoImplicit false

namespace Descent

open Text

variable {Γ : Scope} {α β τ σ : Type}

/-! ## Stopping -/

/-- Limits as large as both, and with one round more. -/
def Limits.beyond (l l' : Limits) : Limits where
  depth := max l.depth l'.depth
  rounds := max l.rounds l'.rounds + 1

namespace Run

variable {q : Run α}

/-- A function of the value is applied when the run has ended, so it neither gives a run up nor
saves it. -/
theorem map_eq_unfinished_iff {f : α → β} : q.map f = .unfinished ↔ q = .unfinished := by
  cases q <;> simp [map, andThen]

/-- There are two ways for a run not to end by itself, and stopping rules out one of them only. -/
theorem ended_iff_ne : q.Ended ↔ q ≠ .unfinished ∧ q ≠ .fault := by
  cases q <;> simp [Ended]

end Run

/-- Where both parts end by themselves so does the sequence, a failure of the first part included,
after which the second is not begun. -/
theorem Run.Ended.andThen {q : Run α} {next : α → Behaviour β} (h : q.Ended)
    (hnext : ∀ a t, (next a t).Ended) : (q.andThen next).Ended := by
  cases q with
  | done a t => exact hnext a t
  | failed t => trivial
  | fault | unfinished => exact h.elim

/-- A move takes no rounds, so what is left of a run after a failure is not given up in going back.
-/
theorem State.moveTo_ne_unfinished {n : Nat} {s : State} : moveTo n s ≠ .unfinished := by
  rw [moveTo]
  split <;> exact fun h => by cases h

namespace Rule

variable {ρ : Environment Γ} {r : Rule Γ α} {limits limits' : Limits} {s : State}

/-- With limits that are large enough, the run from the state is not given up. -/
def Stops (ρ : Environment Γ) (r : Rule Γ α) (s : State) : Prop :=
  ∃ limits, r.run limits ρ s ≠ .unfinished

/-- With limits that are large enough, the run from the state ends by itself. -/
def Returns (ρ : Environment Γ) (r : Rule Γ α) (s : State) : Prop :=
  ∃ limits, (r.run limits ρ s).Ended

/-- A run that was not given up used no more rounds and no more depth than it had. With larger
limits it does the same, state by state. -/
theorem run_eq_of_le (depth : limits.depth ≤ limits'.depth)
    (rounds : limits.rounds ≤ limits'.rounds) (stopped : r.run limits ρ s ≠ .unfinished) :
    r.run limits' ρ s = r.run limits ρ s :=
  ((r.run_approximates depth rounds (.refl ρ) s).eq_of_ne stopped).symm

/-- Limits for the first of two parts may be replaced by those for both, which is how limits for a
sequence are found. -/
theorem run_beyond_left (limits' : Limits) (stopped : r.run limits ρ s ≠ .unfinished) :
    r.run (limits.beyond limits') ρ s = r.run limits ρ s :=
  run_eq_of_le (Nat.le_max_left ..) (Nat.le_succ_of_le (Nat.le_max_left ..)) stopped

/-- Likewise those for the second part. With both, limits that were found for two parts are put
together for their sequence. -/
theorem run_beyond_right (limits : Limits) (stopped : r.run limits' ρ s ≠ .unfinished) :
    r.run (limits.beyond limits') ρ s = r.run limits' ρ s :=
  run_eq_of_le (Nat.le_max_right ..) (Nat.le_succ_of_le (Nat.le_max_right ..)) stopped

namespace Stops

/-- A value that is there already stops with no limits at all. -/
theorem pure (a : α) : (Rule.pure a : Rule Γ α).Stops ρ s :=
  ⟨⟨0, 0⟩, fun h => by cases h⟩

/-- A failure that is there already stops with none either. -/
theorem fail (cause : Cause) : (Rule.fail cause : Rule Γ α).Stops ρ s :=
  ⟨⟨0, 0⟩, fun h => by cases h⟩

/-- What became of a run is asked once it has stopped. -/
theorem attempt (h : r.Stops ρ s) : (Rule.attempt r).Stops ρ s := by
  obtain ⟨limits, stopped⟩ := h
  refine ⟨limits, ?_⟩
  show ((r.run limits ρ s).map some).orElse _ ≠ .unfinished
  cases run : r.run limits ρ s with
  | done | failed | fault => exact fun h => by cases h
  | unfinished => exact absurd run stopped

/-- Going back takes no rounds, so the whole stops with the limits that its part stops with. -/
theorem atomically (h : r.Stops ρ s) : (Rule.atomically r).Stops ρ s := by
  obtain ⟨limits, stopped⟩ := h
  refine ⟨limits, ?_⟩
  show (r.run limits ρ s).orElse _ ≠ .unfinished
  cases run : r.run limits ρ s with
  | done | fault => exact fun h => by cases h
  | failed t =>
    rw [Run.orElse, State.moveTo]
    split <;> exact fun h => by cases h
  | unfinished => exact absurd run stopped

/-- The limits are those for both parts together. The second part depends on how the first one
ended, which with larger limits is the same. -/
theorem bind {r : Rule Γ β} {next : β → Rule Γ α} (h : r.Stops ρ s)
    (hnext : ∀ limits a t, r.run limits ρ s = .done a t → (next a).Stops ρ t) :
    (r >>= next).Stops ρ s := by
  obtain ⟨limits, stopped⟩ := h
  have run_eq (limits : Limits) : (r >>= next).run limits ρ s =
      (r.run limits ρ s).andThen fun a => (next a).run limits ρ := rfl
  cases run : r.run limits ρ s with
  | done a t =>
    obtain ⟨limits', stopped'⟩ := hnext limits a t run
    refine ⟨limits.beyond limits', ?_⟩
    rw [run_eq, run_beyond_left limits' stopped, run, Run.andThen, run_beyond_right limits stopped']
    exact stopped'
  | failed | fault =>
    refine ⟨limits, ?_⟩
    rw [run_eq, run]
    exact fun h => by cases h
  | unfinished => exact absurd run stopped

/-- A repetition stops where its rule does, and from behind the first item. -/
theorem many (h : r.Stops ρ s)
    (hothers : ∀ limits a t, r.run limits ρ s = .done a t → (Rule.many r).Stops ρ t) :
    (Rule.many r).Stops ρ s := by
  obtain ⟨limits, stopped⟩ := h
  have run_eq (limits' : Limits) : (Rule.many r).run (limits.beyond limits') ρ s =
      Behaviour.repeatedly (r.run (limits.beyond limits') ρ)
        (max limits.rounds limits'.rounds + 1) s := rfl
  cases run : r.run limits ρ s with
  | done a t =>
    obtain ⟨limits', stopped'⟩ := hothers limits a t run
    have depth : limits'.depth ≤ (limits.beyond limits').depth := Nat.le_max_right ..
    have rounds : limits'.rounds ≤ (limits.beyond limits').rounds :=
      Nat.le_succ_of_le (Nat.le_max_right ..)
    have parts := r.run_approximates depth rounds (.refl ρ)
    have others := (parts.repeatedly (Nat.le_max_right limits.rounds _) t).eq_of_ne stopped'
    refine ⟨limits.beyond limits', ?_⟩
    rw [run_eq, Behaviour.repeatedly, run_beyond_left limits' stopped, run]
    dsimp only
    rw [← others, ne_eq, Run.map_eq_unfinished_iff]
    exact stopped'
  | failed t =>
    refine ⟨limits.beyond limits, ?_⟩
    rw [run_eq, Behaviour.repeatedly, run_beyond_left limits stopped, run]
    exact mt Run.map_eq_unfinished_iff.1 State.moveTo_ne_unfinished
  | fault =>
    refine ⟨limits.beyond limits, ?_⟩
    rw [run_eq, Behaviour.repeatedly, run_beyond_left limits stopped, run]
    exact fun h => by cases h
  | unfinished => exact absurd run stopped

end Stops

/-! ## Going on -/

variable {text : List Char} {term : Rule Γ τ} {separator : Rule Γ σ}

/-- On the text, each success leads further than where it began, and not beyond the end. -/
def Progresses (text : List Char) (ρ : Environment Γ) (r : Rule Γ α) : Prop :=
  ∀ limits s a t, s.text = text → r.run limits ρ s = .done a t →
    t.text = text ∧ s.cursor < t.cursor ∧ t.cursor ≤ byteLength text

/-- On the text, no success leads back before where it began. -/
def HoldsGround (text : List Char) (ρ : Environment Γ) (r : Rule Γ α) : Prop :=
  ∀ limits s a t, s.text = text → r.run limits ρ s = .done a t →
    t.text = text ∧ s.cursor ≤ t.cursor

/-- A link succeeds when a separator and the term behind it do, one from where the other was left.
This is what the premises speak of, so the two runs are named here. -/
theorem link_run_eq_done_iff {link : σ × τ} {v : State} :
    (Rule.link term separator).run limits ρ s = .done link v ↔
      ∃ t, separator.run limits ρ s = .done link.1 t ∧ term.run limits ρ t = .done link.2 v := by
  obtain ⟨x, y⟩ := link
  show ((separator.run limits ρ s).andThen fun x =>
    Behaviour.andThen (term.run limits ρ) fun y => Behaviour.pure (x, y)) = _ ↔ _
  simp only [Run.andThen_eq_done_iff, Behaviour.andThen, Behaviour.pure, Run.done.injEq,
    Prod.mk.injEq]
  constructor
  · rintro ⟨_, t, first, _, _, second, ⟨rfl, rfl⟩, rfl⟩
    exact ⟨t, first, second⟩
  · rintro ⟨t, first, second⟩
    exact ⟨x, t, first, y, v, second, ⟨rfl, rfl⟩, rfl⟩

/-- Leading further, a rule does not lead back: one may take as a separator whatever may be a term.
-/
theorem Progresses.holdsGround (h : r.Progresses text ρ) : r.HoldsGround text ρ :=
  fun limits s a t on run => ⟨(h limits s a t on run).1, Nat.le_of_lt (h limits s a t on run).2.1⟩

/-- The term in a link leads further, from where the separator has not led back. -/
theorem Progresses.link (hterm : term.Progresses text ρ)
    (hseparator : separator.HoldsGround text ρ) : (Rule.link term separator).Progresses text ρ := by
  intro limits s link v on run
  obtain ⟨t, first, second⟩ := link_run_eq_done_iff.1 run
  obtain ⟨on, ground⟩ := hseparator limits s _ t on first
  obtain ⟨on, further, within⟩ := hterm limits t _ v on second
  exact ⟨on, Nat.lt_of_le_of_lt ground further, within⟩

/-! ## Loops stop -/

/-- A row of successes has at most as many values as there are bytes left. -/
theorem Progresses.length_le (h : r.Progresses text ρ) {values : List α} {last : State}
    (row : (r.run limits ρ).Succeeds s values last) (on : s.text = text) :
    values.length ≤ byteLength text - s.cursor := by
  induction row with
  | nil => exact Nat.zero_le _
  | cons first _ ih =>
    obtain ⟨on, further, within⟩ := h limits _ _ _ on first
    have := ih on
    rw [List.length_cons]
    omega

/-- The items of a repetition are such a row, whatever became of the attempt that ended it. -/
theorem Progresses.length_many_le (h : r.Progresses text ρ) {values : List α} {v : State}
    (on : s.text = text) (run : (Rule.many r).run limits ρ s = .done values v) :
    values.length ≤ byteLength text - s.cursor := by
  obtain ⟨-, last, failing, row, -⟩ := Behaviour.repeatedly_eq_done_iff.1 run
  exact h.length_le row.succeeds on

/-- **A repetition of what leads further stops.** The induction is on the number of bytes left, and
the case at hand is a repetition from behind the first item, where there are fewer. -/
theorem Progresses.stops_many (h : r.Progresses text ρ)
    (stops : ∀ s, s.text = text → r.Stops ρ s) (on : s.text = text) :
    (Rule.many r).Stops ρ s := by
  -- Behind each item, there are fewer bytes left.
  induction left : byteLength text - s.cursor using Nat.strongRecOn generalizing s with
  | ind n ih =>
    refine (stops s on).many fun limits a t run => ?_
    obtain ⟨on, further, within⟩ := h limits s a t on run
    exact ih (byteLength text - t.cursor) (by omega) on rfl

/-- A chain stops where its first term does and, from behind that, the repetition of its links. All
that is done besides takes no rounds. -/
theorem Stops.chain1 (hterm : term.Stops ρ s)
    (hlinks : ∀ limits a t, term.run limits ρ s = .done a t →
      (Rule.many (Rule.link term separator)).Stops ρ t) :
    (Rule.chain1 term separator).Stops ρ s := by
  refine (hterm.attempt.bind fun limits first t run => ?_).atomically
  cases first with
  | none => exact .fail _
  | some head =>
    refine (hlinks limits head t ?_).bind fun _ _ _ _ => .pure _
    obtain ⟨_, ⟨⟩, run⟩ | ⟨⟨⟩, -⟩ := Behaviour.attempt_eq_done_iff.1 run
    exact run

/-! ## No faults -/

end Rule

/-- The run came to no fault and left the text as it is, and with a value it ended at a place. -/
inductive Run.Calm (text : List Char) : Run α → Prop
  | done (a : α) {t : State} (on : t.text = text) (place : IsPlace t.cursor text = true) :
      Calm text (.done a t)
  | failed {t : State} (on : t.text = text) : Calm text (.failed t)
  | unfinished : Calm text .unfinished

namespace Run.Calm

variable {text : List Char} {q : Run α} {s : State}

/-- A calm run is one whose slices all were at places, so it came to no fault. -/
theorem ne_fault (h : q.Calm text) : q ≠ .fault := by
  rintro rfl
  cases h

/-- The second part of a sequence begins where the first one ended with a value, which is a place.
-/
theorem andThen {next : α → Behaviour β} (h : q.Calm text)
    (hnext : ∀ a t, t.text = text → IsPlace t.cursor text = true → (next a t).Calm text) :
    (q.andThen next).Calm text := by
  cases h with
  | done a on place => exact hnext a _ on place
  | failed on => exact .failed on
  | unfinished => exact .unfinished

/-- A function of the value moves no cursor, so a run that was calm is calm with its value mapped.
-/
theorem map (h : q.Calm text) (f : α → β) : (q.map f).Calm text :=
  h.andThen fun a _ on place => .done (f a) on place

/-- To a place of the text, one can go back. -/
theorem moveTo {n : Nat} (on : s.text = text) (place : IsPlace n text = true) :
    (State.moveTo n s).Calm text := by
  rw [State.moveTo, if_pos (on ▸ place)]
  exact .done () on place

/-- Of a failure it is not asked where it left the cursor, since the run goes back to where it
began, and that is a place. -/
theorem atomically {b : Behaviour α} (h : (b s).Calm text) (place : IsPlace s.cursor text = true) :
    (Behaviour.atomically b s).Calm text := by
  rw [Behaviour.atomically]
  generalize b s = q at h ⊢
  cases h with
  | done a on place => exact .done a on place
  | failed on => exact (moveTo on place).andThen fun _ _ on _ => .failed on
  | unfinished => exact .unfinished

/-- Each round begins at a place, the first one by assumption and the others because a round before
it succeeded. The last round failed and is taken back. -/
theorem repeatedly {b : Behaviour α}
    (h : ∀ s, s.text = text → IsPlace s.cursor text = true → (b s).Calm text) (rounds : Nat)
    (on : s.text = text) (place : IsPlace s.cursor text = true) :
    (Behaviour.repeatedly b rounds s).Calm text := by
  induction rounds generalizing s with
  | zero => exact .unfinished
  | succ rounds ih =>
    rw [Behaviour.repeatedly]
    have attempt := h s on place
    generalize b s = q at attempt ⊢
    cases attempt with
    | done a on place => exact (ih on place).map _
    | failed on => exact (moveTo on place).map _
    | unfinished => exact .unfinished

end Run.Calm

namespace Rule

variable {text : List Char} {ρ : Environment Γ} {r : Rule Γ α} {term : Rule Γ τ}
  {separator : Rule Γ σ} {s : State}

/-- So are all runs that begin at a place of the text. -/
def Calm (text : List Char) (ρ : Environment Γ) (r : Rule Γ α) : Prop :=
  ∀ limits s, s.text = text → IsPlace s.cursor text = true → (r.run limits ρ s).Calm text

namespace Calm

/-- What takes no step stays at the place where it is. -/
theorem pure (a : α) : (Rule.pure a : Rule Γ α).Calm text ρ :=
  fun _ _ on place => .done a on place

/-- A failure has to leave the text alone, and nothing more. -/
theorem fail (cause : Cause) : (Rule.fail cause : Rule Γ α).Calm text ρ :=
  fun _ _ on _ => .failed on

/-- The parts are calm, wherever they begin, so the sequence is. -/
theorem bind {r : Rule Γ β} {next : β → Rule Γ α} (h : r.Calm text ρ)
    (hnext : ∀ a, (next a).Calm text ρ) : (r >>= next).Calm text ρ :=
  fun limits s on place => (h limits s on place).andThen fun a t => hnext a limits t

/-- Taken back to a place, a rule is calm if its part is. -/
theorem atomically (h : r.Calm text ρ) : (Rule.atomically r).Calm text ρ :=
  fun limits s on place => (h limits s on place).atomically place

/-- The rounds are bounded by the limits here, and being given up is calm as well. -/
theorem many (h : r.Calm text ρ) : (Rule.many r).Calm text ρ :=
  fun limits _ on place => .repeatedly (h limits) limits.rounds on place

/-- A link is a sequence of two rules that are calm. -/
theorem link (hterm : term.Calm text ρ) (hseparator : separator.Calm text ρ) :
    (Rule.link term separator).Calm text ρ :=
  hseparator.bind fun _ => hterm.bind fun _ => .pure _

/-- The row is read calmly, and whether it is empty is asked without moving. -/
theorem many1 (h : r.Calm text ρ) : r.many1.Calm text ρ := by
  refine (h.many.bind fun values => ?_).atomically
  split
  · exact .fail _
  · exact .pure _

/-- Where the first term fails, the cursor may be anywhere, until it is taken back. -/
theorem chain1 (hterm : term.Calm text ρ) (hseparator : separator.Calm text ρ) :
    (Rule.chain1 term separator).Calm text ρ := by
  intro limits s on place
  rw [chain1_run]
  refine Run.Calm.atomically ?_ place
  rw [Behaviour.andThen, Behaviour.attempt]
  have first := hterm limits s on place
  generalize term.run limits ρ s = q at first ⊢
  cases first with
  | done head on place => exact ((hterm.link hseparator).many limits _ on place).map _
  | failed on => exact .failed on
  | unfinished => exact .unfinished

/-- A calm run that stops ends by itself, as these are the two ways not to. -/
theorem returns (h : r.Calm text ρ) (stops : r.Stops ρ s) (on : s.text = text)
    (place : IsPlace s.cursor text = true) : r.Returns ρ s := by
  obtain ⟨limits, stopped⟩ := stops
  exact ⟨limits, Run.ended_iff_ne.2 ⟨stopped, (h limits s on place).ne_fault⟩⟩

end Calm

/-- What goes forward, wherever it begins, keeps to places, since it ends behind characters that it
has gone through. -/
theorem calm_of_advances {P : List Char → α → Prop} {E : Prop}
    (h : ∀ limits, r.Advances limits ρ P E) : r.Calm text ρ := by
  rintro limits s rfl place
  obtain ⟨cs, ahead⟩ := Option.isSome_iff_exists.1 place
  have run := h limits s cs ahead
  generalize r.run limits ρ s = q at run ⊢
  cases run with
  | done way => exact .done _ way.text_eq way.isPlace
  | failed way => exact .failed way.text_eq
  | unfinished => exact .unfinished

/-- A chain that may be empty ends by itself where one that may not does so: what is added is a move
back to where it began. -/
theorem Returns.chain (h : (Rule.chain1 term separator).Returns ρ s) :
    (Rule.chain term separator).Returns ρ s := by
  obtain ⟨limits, ended⟩ := h
  exact ⟨limits, chain_run_ended_iff.2 ended⟩

/-- A fold is a function of the chain that was read, and fails without moving where there is no
term. -/
theorem Returns.fold (h : (Rule.chain term separator).Returns ρ s) (f : Chain τ σ → Option τ) :
    (Rule.fold term separator f).Returns ρ s := by
  obtain ⟨limits, ended⟩ := h
  refine ⟨limits, ?_⟩
  rw [fold_run]
  refine ended.andThen fun c t => ?_
  cases f c <;> trivial

/-- Trying a chain stops when reading it does, for all that is added is to take a failure back and
to give a value. -/
theorem Stops.chain (h : (Rule.chain1 term separator).Stops ρ s) :
    (Rule.chain term separator).Stops ρ s :=
  h.atomically.attempt.bind fun _ _ _ _ => .pure _

/-- To fold what was read takes no rounds. The fold is a function of the chain, defined by recursion
on its links. -/
theorem Stops.fold (h : (Rule.chain term separator).Stops ρ s) (f : Chain τ σ → Option τ) :
    (Rule.fold term separator f).Stops ρ s := by
  refine h.bind fun _ c _ _ => ?_
  split
  · exact .pure _
  · exact .fail _

/-- Asking whether the row is empty takes no rounds either. -/
theorem Stops.many1 (h : (Rule.many r).Stops ρ s) : r.many1.Stops ρ s := by
  refine (h.bind fun _ values _ _ => ?_).atomically
  split
  · exact .fail _
  · exact .pure _

end Rule

/-! ## Characters and empty separators -/

namespace Rule

variable {text : List Char} {ρ : Environment Γ}

/-- A character takes at least one byte, and none lies beyond the end. -/
theorem progresses_char : (Rule.char : Rule Γ Char).Progresses text ρ := by
  intro limits s a t on run
  replace run : State.char s = .done a t := run
  rw [State.char_eq, State.withAhead] at run
  cases ahead : s.ahead? with
  | none => rw [ahead] at run; cases run
  | some cs =>
    rw [ahead] at run
    cases cs with
    | nil => cases run
    | cons c cs =>
      cases run
      have place := (State.Through.advance (u := [a]) ahead).isPlace
      refine ⟨on, ?_, on ▸ le_of_isPlace place⟩
      have := a.utf8Size_pos
      show s.cursor < s.cursor + (a.utf8Size + 0)
      omega

/-- A single character is read without any round, so runs of it stop under any limits at all. -/
theorem stops_char (s : State) : (Rule.char : Rule Γ Char).Stops ρ s := by
  refine ⟨⟨0, 0⟩, ?_⟩
  show State.char s ≠ .unfinished
  rw [State.char_eq, State.withAhead]
  cases s.ahead? with
  | none => exact fun h => by cases h
  | some cs => cases cs <;> exact fun h => by cases h

/-- What reads nothing is left where it began: the smallest separator there is. -/
theorem holdsGround_pure (a : α) : (Rule.pure a : Rule Γ α).HoldsGround text ρ := by
  intro limits s _ t on run
  cases run
  exact ⟨on, Nat.le_refl _⟩

end Rule

/-! ## All loops -/

namespace Parser

/-- The parsers that repeat a term, or a separator and a term. -/
inductive Loop (term : Parser Γ τ) (separator : Parser Γ σ) : {α : Type} → Parser Γ α → Prop
  | many : Loop term separator term.many
  | many1 : Loop term separator term.many1
  | chain : Loop term separator (term.chain separator)
  | chain1 : Loop term separator (term.chain1 separator)
  | chainLeft (combine : τ → τ → σ → τ) : Loop term separator (term.chainLeft separator combine)
  | chainRight (combine : τ → τ → σ → τ) : Loop term separator (term.chainRight separator combine)

/-- **Loops stop.** On a text, each success of the term leads further, though not beyond the end,
and no success of the separator leads back. If all single runs of both stop, so does each loop over
them, wherever it begins. If these keep to places, it also ends by itself. There are no more items
in a repetition, and no more terms in a chain, than bytes were left. -/
theorem loops_stop {text : List Char} {ρ : Environment Γ} {term : Parser Γ τ}
    {separator : Parser Γ σ} (progresses : term.rule.Progresses text ρ)
    (ground : separator.rule.HoldsGround text ρ)
    (termStops : ∀ s, s.text = text → term.rule.Stops ρ s)
    (separatorStops : ∀ s, s.text = text → separator.rule.Stops ρ s)
    {s : State} (on : s.text = text) :
    (∀ {α : Type} {loop : Parser Γ α}, Loop term separator loop → loop.rule.Stops ρ s ∧
      (term.rule.Calm text ρ → separator.rule.Calm text ρ → IsPlace s.cursor text = true →
        loop.rule.Returns ρ s)) ∧
    (∀ limits items v, term.many.rule.run limits ρ s = .done items v →
      items.length ≤ byteLength text - s.cursor) ∧
    ∀ limits c v, (term.chain separator).rule.run limits ρ s = .done c v →
      c.terms.length ≤ byteLength text - s.cursor := by
  have links := progresses.link ground
  have many : (Rule.many term.rule).Stops ρ s := progresses.stops_many termStops on
  have linkStops (t : State) (on : t.text = text) :
      (Rule.link term.rule separator.rule).Stops ρ t :=
    (separatorStops t on).bind fun limits _ u run =>
      (termStops u (ground limits t _ u on run).1).bind fun _ _ _ _ => .pure _
  have chain1 : (Rule.chain1 term.rule separator.rule).Stops ρ s :=
    (termStops s on).chain1 fun limits a t run =>
      links.stops_many linkStops (progresses limits s a t on run).1
  refine ⟨fun {α loop} h => ?_, fun limits items v => progresses.length_many_le on, ?_⟩
  · have chain1Returns (hterm : term.rule.Calm text ρ) (hsep : separator.rule.Calm text ρ)
        (place : IsPlace s.cursor text = true) :
        (Rule.chain1 term.rule separator.rule).Returns ρ s :=
      (hterm.chain1 hsep).returns chain1 on place
    have foldReturns (f : Chain τ σ → Option τ) (hterm : term.rule.Calm text ρ)
        (hsep : separator.rule.Calm text ρ) (place : IsPlace s.cursor text = true) :
        (Rule.fold term.rule separator.rule f).Returns ρ s :=
      (chain1Returns hterm hsep place).chain.fold f
    cases h with
    | many => exact ⟨many, fun hterm _ => hterm.many.returns many on⟩
    | many1 => exact ⟨many.many1, fun hterm _ => hterm.many1.returns many.many1 on⟩
    | chain1 => exact ⟨chain1, chain1Returns⟩
    | chain =>
      exact ⟨chain1.chain, fun hterm hsep place => (chain1Returns hterm hsep place).chain⟩
    | chainLeft combine => exact ⟨chain1.chain.fold _, foldReturns _⟩
    | chainRight combine => exact ⟨chain1.chain.fold _, foldReturns _⟩
  · intro limits c v run
    obtain read | ⟨rfl, -⟩ := Rule.chain_run_eq_done_iff.1 run
    · obtain ⟨head, t, tail, first, repeated, rfl⟩ := Rule.chain1_run_eq_done_iff.1 read
      obtain ⟨on, further, within⟩ := progresses limits s head t on first
      have := links.length_many_le on repeated
      simp only [Chain.terms, List.length_cons, List.length_map]
      omega
    · exact Nat.zero_le _

/-- Two characters make an item, and nothing stands between items. The last attempt gets past a
character before it fails. -/
theorem loops_stop_pairs :
    let term : Parser [] (Char × Char) := anyChar.pair anyChar
    let separator : Parser [] Unit := ret ()
    let s := State.start "żab"
    term.rule.Progresses s.text .undefined ∧ separator.rule.HoldsGround s.text .undefined ∧
      (∀ t, t.text = s.text → term.rule.Stops .undefined t ∧ separator.rule.Stops .undefined t) ∧
      (∀ combine, (term.chainLeft separator combine).rule.Returns .undefined s) ∧
      ∀ limits c v, (term.chain separator).rule.run limits .undefined s = .done c v →
        c.terms.length ≤ 4 := by
  intro term separator s
  have char : (Rule.char : Rule [] Char).Progresses s.text .undefined := Rule.progresses_char
  have progresses : term.rule.Progresses s.text .undefined := char.link char.holdsGround
  have ground : separator.rule.HoldsGround s.text .undefined := Rule.holdsGround_pure ()
  have termStops (t : State) : term.rule.Stops .undefined t :=
    (Rule.stops_char t).bind fun _ _ u _ => (Rule.stops_char u).bind fun _ _ _ _ => .pure _
  have separatorStops (t : State) : separator.rule.Stops .undefined t := .pure ()
  have charCalm : (Rule.char : Rule [] Char).Calm s.text .undefined :=
    Rule.calm_of_advances (P := fun _ _ => True) (E := True) fun limits => .char fun _ => trivial
  have loops := loops_stop progresses ground (fun t _ => termStops t) (fun t _ => separatorStops t)
    (s := s) rfl
  exact ⟨progresses, ground, fun t _ => ⟨termStops t, separatorStops t⟩,
    fun combine => (loops.1 (.chainLeft combine)).2 (charCalm.link charCalm) (.pure ()) (by decide),
    fun limits c v run => loops.2.2 limits c v run⟩

end Parser

end Descent
