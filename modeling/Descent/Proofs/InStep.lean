/-
Runs in step.

A rule is run by what its operations do, and here they may also do something else
(`Rule.runWith`). Two such runs are *in step* when they go through the same states and end
alike, or the first of them is halted on the way (`Run.InStep`). All their states lie in
one *region*: they have one text, and their offsets are where the region says. So what one
run does tells what the other does, as long as it is not halted.

Operations that are in step, one by one, make runs in step (`Rule.Uses.inStep`), also where
the second run has larger limits and the first is halted at its own. Each operator on
behaviours keeps runs in step, by one lemma each, and each operation is in step with itself
where it keeps to the region (`Region.Holds.operation`).
-/
import Descent.Proofs.Advance

set_option autoImplicit false

namespace Descent

open Text

variable {Γ : Scope} {α β : Type}

/-! ## Regions -/

/-- Where the offsets in a state may lie. -/
structure Region where
  text : List Char
  /-- Where the cursor may stand. -/
  cursor : Nat → Prop
  /-- Where a failure may be reported and a place be kept. -/
  other : Nat → Prop
  other_of_cursor : ∀ n, cursor n → other n
  /-- No run may come to a fault. -/
  calm : Prop
  isPlace_of_cursor : calm → ∀ n, cursor n → IsPlace n text = true

/-- The state lies in the region. -/
structure Region.Holds (R : Region) (s : State) : Prop where
  text : s.text = R.text
  cursor : R.cursor s.cursor
  failure : R.other s.failure.position
  bookmarks : ∀ b ∈ s.bookmarks, R.other b.2

namespace Region.Holds

variable {R : Region} {s t : State}

/-- Taking the cursor back to where a run began does not leave the region, as the run began in it.
-/
theorem back (hs : R.Holds s) (ht : R.Holds t) : R.Holds { t with cursor := s.cursor } :=
  ⟨ht.text, hs.cursor, ht.failure, ht.bookmarks⟩

/-- A report may be moved to a place where the cursor may stand, since failures may be reported at
all of these. -/
theorem relocate (hs : R.Holds s) (ht : R.Holds t) : R.Holds (t.relocate s.cursor) :=
  ⟨ht.text, ht.cursor, R.other_of_cursor _ hs.cursor, ht.bookmarks⟩

/-- A failure is recorded at the cursor, which is a place that may be reported. -/
theorem record (hs : R.Holds s) (cause : Cause) : R.Holds (s.record cause) :=
  ⟨hs.text, hs.cursor, R.other_of_cursor _ hs.cursor, hs.bookmarks⟩

/-- The sentence of a failure is no offset, so the region does not speak of it. -/
theorem rephrase (hs : R.Holds s) (reason : String) : R.Holds (s.rephrase reason) :=
  ⟨hs.text, hs.cursor, hs.failure, hs.bookmarks⟩

/-- The places that are kept come back to those of the state that the run began with, whatever was
kept meanwhile. -/
theorem withBookmarks (hs : R.Holds s) (ht : R.Holds t) :
    R.Holds { t with bookmarks := s.bookmarks } :=
  ⟨ht.text, ht.cursor, ht.failure, hs.bookmarks⟩

/-- The cursor is the only offset that a move changes. -/
theorem goTo (hs : R.Holds s) {n : Nat} (h : R.cursor n) : R.Holds { s with cursor := n } :=
  ⟨hs.text, h, hs.failure, hs.bookmarks⟩

/-- What is kept is the cursor, which the region allows to be kept wherever it allows the cursor to
stand. -/
theorem bookmark (hs : R.Holds s) (name : String) :
    R.Holds { s with bookmarks := (name, s.cursor) :: s.bookmarks } := by
  refine ⟨hs.text, hs.cursor, hs.failure, fun b hb => ?_⟩
  rcases List.mem_cons.1 hb with rfl | hb
  · exact R.other_of_cursor _ hs.cursor
  · exact hs.bookmarks b hb

/-- Without places that are kept there is none outside of the region. -/
theorem forget (hs : R.Holds s) : R.Holds { s with bookmarks := [] } :=
  ⟨hs.text, hs.cursor, hs.failure, fun _ hb => by cases hb⟩

end Region.Holds

/-! ## Halting -/

/-- How a run is halted. -/
inductive Halt where
  | fault
  | unfinished

namespace Halt

/-- The end of a run that is halted. -/
def run : Halt → Run α
  | fault => .fault
  | unfinished => .unfinished

/-- So many rounds in the first run, and so many in the second. -/
def Allows (halt : Halt) (m n : Nat) : Prop :=
  m = n ∨ halt = .unfinished ∧ m ≤ n

/-- A round that the first run makes is one that the second run may make as well, and for those
behind it the same is allowed. -/
theorem Allows.pred {halt : Halt} {m n : Nat} (h : halt.Allows (m + 1) n) :
    ∃ k, n = k + 1 ∧ halt.Allows m k := by
  rcases h with rfl | ⟨hhalt, hle⟩
  · exact ⟨m, rfl, .inl rfl⟩
  · exact ⟨n - 1, by omega, .inr ⟨hhalt, by omega⟩⟩

/-- A run that is halted does not go on, so what would follow plays no part. -/
theorem andThen_run (halt : Halt) (next : α → Behaviour β) :
    (halt.run : Run α).andThen next = halt.run := by
  cases halt <;> rfl

/-- Being halted is no failure, so nothing rescues it, and a run that is halted anywhere is halted
as a whole. -/
theorem orElse_run (halt : Halt) (rescue : Behaviour α) :
    (halt.run : Run α).orElse rescue = halt.run := by
  cases halt <;> rfl

end Halt

/-! ## Runs -/

/-- The runs ended alike in the region, or the first was halted. -/
inductive Run.InStep (R : Region) (halt : Halt) : Run α → Run α → Prop
  | done (a : α) {t : State} (h : R.Holds t) : InStep R halt (.done a t) (.done a t)
  | failed {t : State} (h : R.Holds t) : InStep R halt (.failed t) (.failed t)
  | fault (h : ¬ R.calm) : InStep R halt .fault .fault
  | unfinished : InStep R halt .unfinished .unfinished
  | halted (r : Run α) : InStep R halt halt.run r

/-- From every state in the region, what the behaviours do is in step. -/
def Behaviour.InStep (R : Region) (halt : Halt) (b c : Behaviour α) : Prop :=
  ∀ s : State, R.Holds s → (b s).InStep R halt (c s)

namespace Run.InStep

variable {R : Region} {halt : Halt} {q r : Run α}

/-- What follows is run with the same value from the same state on both sides, or not at all on the
side that is halted. -/
theorem andThen {next next' : α → Behaviour β} (h : q.InStep R halt r)
    (hnext : ∀ a, (next a).InStep R halt (next' a)) :
    (q.andThen next).InStep R halt (r.andThen next') := by
  cases h with
  | done a h => exact hnext a _ h
  | failed h => exact .failed h
  | fault h => exact .fault h
  | unfinished => exact .unfinished
  | halted =>
    rw [Halt.andThen_run]
    exact .halted _

/-- After a failure both runs are in the same state, in the region, and the two rescues begin there.
-/
theorem orElse {rescue rescue' : Behaviour α} (h : q.InStep R halt r)
    (hrescue : rescue.InStep R halt rescue') :
    (q.orElse rescue).InStep R halt (r.orElse rescue') := by
  cases h with
  | done a h => exact .done a h
  | failed h => exact hrescue _ h
  | fault h => exact .fault h
  | unfinished => exact .unfinished
  | halted =>
    rw [Halt.orElse_run]
    exact .halted _

/-- A value under a function, with the states as they were: this is the case of a sequence whose
second part does nothing. -/
theorem map (h : q.InStep R halt r) (f : α → β) : (q.map f).InStep R halt (r.map f) :=
  h.andThen fun a _ ht => .done (f a) ht

/-- No round is left for the first run, which is then given up. The second run, if it may make more
rounds, is compared with a run that was halted. -/
theorem exhausted {n : Nat} (allows : halt.Allows 0 n) {r : Nat → Run α} (h : r 0 = .unfinished) :
    Run.InStep R halt .unfinished (r n) := by
  rcases allows with rfl | ⟨rfl, -⟩
  · rw [h]
    exact .unfinished
  · exact .halted _

/-- Not halted, the first run is the second: this is what being in step is for. -/
theorem eq_or_halted (h : q.InStep R halt r) : q = r ∨ q = halt.run := by
  cases h with
  | halted => exact .inr rfl
  | _ => exact .inl rfl

/-- No run is halted in both ways, so runs that are in step whichever way is chosen are equal. -/
theorem eq_of_halts (h : ∀ halt, q.InStep R halt r) : q = r := by
  rcases (h .fault).eq_or_halted with same | fault
  · exact same
  · rcases (h .unfinished).eq_or_halted with same | unfinished
    · exact same
    · rw [fault] at unfinished
      cases unfinished

end Run.InStep

/-! ## Operations -/

namespace Operation

/-- The pattern, if the operation is for one, leads. -/
def Leads : Operation α → Prop
  | .matchPattern p => p.Leads
  | _ => True

/-- The offset that is given to the operation, to move there or to locate it. -/
def given : Operation α → State → Option Nat
  | .moveTo offset, _ | .locate offset, _ => some offset
  | .returnTo name, s => some (s.bookmarked name)
  | _, _ => none

end Operation

/-- Looking at the character ahead, and then consuming it. Written so, it depends on the text ahead
alone, as the other operations do. -/
theorem State.char_eq (s : State) :
    State.char s = s.withAhead fun
      | [] => State.fail .endOfText s
      | c :: _ => .done c (s.advance [c]) := by
  rw [State.char, State.peek, State.withAhead, State.withAhead]
  cases s.ahead? with
  | none => rfl
  | some cs => cases cs <;> rfl

namespace Region.Holds

variable {R : Region} {halt : Halt} {s t : State}

/-- A move to an offset that the region allows is made by both runs, and if it is no place of the
text both come to a fault, which is then allowed as well. -/
theorem moveTo (hs : R.Holds s) {n : Nat} (h : R.cursor n) :
    (State.moveTo n s).InStep R halt (State.moveTo n s) := by
  rw [State.moveTo]
  split
  · exact .done () (hs.goTo h)
  · next place =>
    refine .fault fun calm => place ?_
    rw [hs.text]
    exact R.isPlace_of_cursor calm _ h

/-- Failing on the spot is the same on both sides and stays in the region. -/
theorem fail (hs : R.Holds s) (cause : Cause) :
    (State.fail cause s : Run α).InStep R halt (State.fail cause s) :=
  .failed (hs.record cause)

/-- What depends on the text ahead can be looked at text by text. A cursor inside a character is the
one way to a fault here, and a calm region has no such cursor. -/
theorem withAhead (hs : R.Holds s) {f : List Char → Run α}
    (h : ∀ cs, s.ahead? = some cs → (f cs).InStep R halt (f cs)) :
    (s.withAhead f).InStep R halt (s.withAhead f) := by
  rw [State.withAhead]
  cases ahead : s.ahead? with
  | some cs => exact h cs ahead
  | none =>
    refine .fault fun calm => ?_
    have place := R.isPlace_of_cursor calm _ hs.cursor
    rw [← hs.text, IsPlace, show dropBytes s.cursor s.text = none from ahead] at place
    cases place

/-- What an operation does stays in the region where going forward does, and what is given to
the operation. -/
theorem operation {o : Operation α} (hs : R.Holds s)
    (forward : ∀ u cs, s.ahead? = some (u ++ cs) → R.cursor (s.advance u).cursor)
    (leads : o.Leads ∨ ∀ n, R.cursor n) (given : ∀ n ∈ o.given s, R.cursor n) :
    (o.run s).InStep R halt (o.run s) := by
  have advance {u cs : List Char} (a : α) (h : s.ahead? = some (u ++ cs)) :
      (Run.done a (s.advance u)).InStep R halt (.done a (s.advance u)) :=
    .done a (hs.goTo (forward u cs h))
  cases o with
  | peek =>
    refine hs.withAhead fun cs _ => ?_
    cases cs with
    | nil => exact hs.fail _
    | cons c cs => exact .done c hs
  | char =>
    rw [Operation.run, State.char_eq]
    refine hs.withAhead fun cs ahead => ?_
    cases cs with
    | nil => exact hs.fail _
    | cons c cs => exact advance (u := [c]) c ahead
  | literal expected =>
    refine hs.withAhead fun cs ahead => ?_
    dsimp only
    split
    · next found =>
      obtain ⟨rest, rfl⟩ := List.isPrefixOf_iff_prefix.1 found
      exact advance expected ahead
    · split
      · exact hs.fail _
      · exact hs.fail _
  | matchPattern p =>
    refine hs.withAhead fun cs ahead => ?_
    cases hfind : p.find? cs with
    | none => exact hs.fail _
    | some found =>
      rcases leads with leads | everywhere
      · obtain ⟨rest, rfl⟩ := leads cs found hfind
        exact advance _ ahead
      · exact .done _ (hs.goTo (everywhere _))
  | ending =>
    refine hs.withAhead fun cs _ => ?_
    cases cs with
    | nil => exact .done () hs
    | cons c cs => exact hs.fail _
  | skipBlanks =>
    refine hs.withAhead fun cs ahead => ?_
    rw [← cs.takeWhile_append_dropWhile (p := isBlank)] at ahead
    exact advance _ ahead
  | rest => exact hs.withAhead fun _ _ => .done _ hs
  | wholeText | position | isAtEnd | lastFailure => exact .done _ hs
  | moveTo offset => exact hs.moveTo (given offset rfl)
  | bookmark name => exact .done () (hs.bookmark name)
  | returnTo name => exact hs.moveTo (given _ rfl)
  | locate offset =>
    show (State.locate offset s).InStep R halt (State.locate offset s)
    rw [State.locate]
    cases location : Location.ofOffset? s.text offset with
    | some l => exact .done l hs
    | none =>
      refine .fault fun calm => ?_
      have place := R.isPlace_of_cursor calm _ (given offset rfl)
      obtain ⟨l, hl⟩ := Location.exists_of_isPlace place
      rw [← hs.text, location] at hl
      cases hl

end Region.Holds

/-! ## Behaviours -/

namespace Behaviour.InStep

variable {R : Region} {halt : Halt} {b c : Behaviour α}

/-- A value that is there already takes no step, and no watch has anything to say to it. -/
theorem pure (a : α) : InStep R halt (Behaviour.pure a) (Behaviour.pure a) :=
  fun _ hs => .done a hs

/-- Both runs record the same failure at the same place. -/
theorem fail (cause : Cause) :
    InStep R halt (State.fail cause : Behaviour α) (State.fail cause) :=
  fun _ hs => .failed (hs.record cause)

/-- The failure is already in the slot, so the two states stay what they are. -/
theorem raise : InStep R halt (Behaviour.raise : Behaviour α) Behaviour.raise :=
  fun _ hs => .failed hs

/-- The first parts are in step, and from wherever they come to so are the second parts. -/
theorem andThen {d e : Behaviour β} {next next' : β → Behaviour α} (h : InStep R halt d e)
    (hnext : ∀ a, InStep R halt (next a) (next' a)) :
    InStep R halt (Behaviour.andThen d next) (Behaviour.andThen e next') :=
  fun s hs => (h s hs).andThen hnext

/-- A failure becomes the absence of a value in the same state, so the runs go on in step. -/
theorem attempt (h : InStep R halt b c) :
    InStep R halt (Behaviour.attempt b) (Behaviour.attempt c) :=
  fun s hs => ((h s hs).map some).orElse fun _ ht => .done none ht

/-- Both runs go back to where they began, which is in the region. -/
theorem rewind (h : InStep R halt b c) :
    InStep R halt (Behaviour.rewind b) (Behaviour.rewind c) :=
  fun s hs => (h s hs).orElse fun _ ht => (ht.moveTo hs.cursor).andThen fun _ _ hw => .failed hw

/-- Both go back and report the failure where they began. The report is in the region because the
cursor was. -/
theorem atomically (h : InStep R halt b c) :
    InStep R halt (Behaviour.atomically b) (Behaviour.atomically c) :=
  fun s hs => (h s hs).orElse fun _ ht =>
    (ht.moveTo hs.cursor).andThen fun _ _ hw => .failed (hs.relocate hw)

/-- Each of the two ways on is in step with its fellow, and which of them is taken is settled by the
first part, alike on both sides. -/
theorem handle {d e : Behaviour β} {next next' : β → Behaviour α} (h : InStep R halt d e)
    (hnext : ∀ a, InStep R halt (next a) (next' a)) (hrescue : InStep R halt b c) :
    InStep R halt (Behaviour.handle d next b) (Behaviour.handle e next' c) := by
  intro s hs
  have first := h s hs
  rw [Behaviour.handle, Behaviour.handle]
  generalize d s = q, e s = r at first
  cases first with
  | done a ht => exact hnext a _ ht
  | failed ht => exact hrescue _ ht
  | fault h => exact .fault h
  | unfinished => exact .unfinished
  | halted =>
    cases halt
    · exact .halted _
    · exact .halted _

/-- The failures are the same before and after they are given another sentence. -/
theorem rephrase (h : InStep R halt b c) (reason : String) :
    InStep R halt (Behaviour.rephrase reason b) (Behaviour.rephrase reason c) :=
  fun s hs => (h s hs).orElse fun _ ht => .failed (ht.rephrase reason)

/-- The induction is on the rounds of the first run. When these are used up it is halted, and the
second run may do with its own what it likes. -/
theorem repeatedly (h : InStep R halt b c) {m n : Nat} (allows : halt.Allows m n) :
    InStep R halt (Behaviour.repeatedly b m) (Behaviour.repeatedly c n) := by
  induction m generalizing n with
  | zero => exact fun s _ => .exhausted allows (r := fun n => Behaviour.repeatedly c n s) rfl
  | succ m ih =>
    obtain ⟨n, rfl, fewer⟩ := allows.pred
    intro s hs
    have first := h s hs
    rw [Behaviour.repeatedly, Behaviour.repeatedly]
    generalize b s = q, c s = r at first
    cases first with
    | done a ht => exact (ih fewer _ ht).map _
    | failed ht => exact (ht.moveTo hs.cursor).map _
    | fault h => exact .fault h
    | unfinished => exact .unfinished
    | halted =>
      cases halt
      · exact .halted _
      · exact .halted _

/-- The same with a value carried from round to round: it is the same value on both sides, since the
steps are in step. -/
theorem iterate {step step' : β → Behaviour (β ⊕ α)}
    (h : ∀ x, InStep R halt (step x) (step' x)) {m n : Nat} (allows : halt.Allows m n) (x : β) :
    InStep R halt (Behaviour.iterate step m x) (Behaviour.iterate step' n x) := by
  induction m generalizing n x with
  | zero => exact fun s _ => .exhausted allows (r := fun n => Behaviour.iterate step' n x s) rfl
  | succ m ih =>
    obtain ⟨n, rfl, fewer⟩ := allows.pred
    intro s hs
    rw [Behaviour.iterate, Behaviour.iterate]
    refine (h x s hs).andThen fun y t ht => ?_
    cases y with
    | inl x => exact ih fewer x t ht
    | inr a => exact .done a ht

/-- The copy goes its own way in the region, and of what becomes of it only the places kept come
back. -/
theorem speculate (h : InStep R halt b c) :
    InStep R halt (Behaviour.speculate b) (Behaviour.speculate c) :=
  fun s hs => (h.attempt s hs).andThen fun a t ht => .done (a, t) (ht.withBookmarks hs)

/-- The run begins with no place kept, which is in the region, and ends with those that it found. -/
theorem enclosed (h : InStep R halt b c) :
    InStep R halt (Behaviour.enclosed b) (Behaviour.enclosed c) :=
  fun _ hs => ((h _ hs.forget).andThen fun a _ ht => .done a (hs.withBookmarks ht)).orElse
    fun _ ht => .failed (hs.withBookmarks ht)

/-- Where bodies are in step as soon as the references in them are, so are the definitions. The
induction is on the depth, and a reference too deep halts the first run. -/
theorem fixed {define define' : Behaviour α → Behaviour α}
    (h : ∀ b c, InStep R halt b c → InStep R halt (define b) (define' c)) {m n : Nat}
    (allows : halt.Allows m n) :
    InStep R halt (Behaviour.fixed define m) (Behaviour.fixed define' n) := by
  induction m generalizing n with
  | zero => exact fun s _ => .exhausted allows (r := fun n => Behaviour.fixed define' n s) rfl
  | succ m ih =>
    obtain ⟨n, rfl, fewer⟩ := allows.pred
    exact h _ _ (ih fewer)

end Behaviour.InStep

/-! ## Rules -/

/-- What each stand-in does in the two environments is in step. -/
def Environment.InStep (R : Region) (halt : Halt) (ρ ρ' : Environment Γ) : Prop :=
  ∀ (α : Type) (v : StandIn Γ α), Option.Rel (Behaviour.InStep R halt) (ρ α v) (ρ' α v)

namespace Environment.InStep

variable {R : Region} {halt : Halt} {ρ ρ' : Environment Γ}

/-- Where no stand-in has anything to do, there is nothing to be in step. -/
theorem undefined : InStep R halt (Environment.undefined : Environment Γ) .undefined :=
  fun _ _ => .none

/-- One more pair of stand-ins in step leaves all of them in step. -/
theorem extend (h : InStep R halt ρ ρ') {b b' : Option (Behaviour α)}
    (hb : Option.Rel (Behaviour.InStep R halt) b b') :
    InStep R halt (ρ.extend b) (ρ'.extend b') := by
  intro α v
  cases v with
  | here => exact hb
  | outer v => exact h α v

end Environment.InStep

namespace Rule

/-- What a rule does where its operations do as `perform` says. -/
def runWith (perform : {α : Type} → Operation α → Behaviour α) (limits : Limits) :
    {Γ : Scope} → {α : Type} → Rule Γ α → Environment Γ → Behaviour α
  | _, _, pure a, _ => Behaviour.pure a
  | _, _, bind r next, ρ =>
    Behaviour.andThen (r.runWith perform limits ρ) fun a => (next a).runWith perform limits ρ
  | _, _, fail cause, _ => State.fail cause
  | _, _, operation o, _ => perform o
  | _, _, attempt r, ρ => Behaviour.attempt (r.runWith perform limits ρ)
  | _, _, rewind r, ρ => Behaviour.rewind (r.runWith perform limits ρ)
  | _, _, atomically r, ρ => Behaviour.atomically (r.runWith perform limits ρ)
  | _, _, handle r next rescue, ρ =>
    Behaviour.handle (r.runWith perform limits ρ) (fun a => (next a).runWith perform limits ρ)
      (rescue.runWith perform limits ρ)
  | _, _, raise, _ => Behaviour.raise
  | _, _, rephrase reason r, ρ => Behaviour.rephrase reason (r.runWith perform limits ρ)
  | _, _, many r, ρ => Behaviour.repeatedly (r.runWith perform limits ρ) limits.rounds
  | _, _, iterate step b, ρ =>
    Behaviour.iterate (fun b => (step b).runWith perform limits ρ) limits.rounds b
  | _, _, speculate r, ρ => Behaviour.speculate (r.runWith perform limits ρ)
  | _, _, enclosed r, ρ => Behaviour.enclosed (r.runWith perform limits ρ)
  | _, _, recursive body, ρ =>
    Behaviour.fixed (fun self => body.runWith perform limits (ρ.extend (some self))) limits.depth
  | _, _, reference v, ρ =>
    match ρ _ v with
    | some b => b
    | none => State.fail .undefined
  | _, _, outlived r, ρ => r.runWith perform limits (ρ.extend none)

/-- With the operations as they are, that is what the rule does. -/
theorem runWith_run (limits : Limits) (r : Rule Γ α) (ρ : Environment Γ) :
    r.runWith Operation.run limits ρ = r.run limits ρ := by
  induction r with
  | pure | fail | operation | raise | reference => rfl
  | bind r next ihr ihnext => simp only [runWith, run, ihr, ihnext]
  | handle r next rescue ihr ihnext ihrescue => simp only [runWith, run, ihr, ihnext, ihrescue]
  | attempt _ ih | rewind _ ih | atomically _ ih | rephrase _ _ ih | many _ ih | iterate _ _ ih
  | speculate _ ih | enclosed _ ih | recursive _ ih | outlived _ ih => simp only [runWith, run, ih]

/-- All operations that the rule uses are as `ok` says. -/
def Uses (ok : {α : Type} → Operation α → Prop) : {Γ : Scope} → {α : Type} → Rule Γ α → Prop
  | _, _, pure _ | _, _, fail _ | _, _, reference _ | _, _, raise => True
  | _, _, bind r next => r.Uses ok ∧ ∀ a, (next a).Uses ok
  | _, _, operation o => ok o
  | _, _, attempt r | _, _, rewind r | _, _, atomically r | _, _, rephrase _ r | _, _, many r
  | _, _, speculate r | _, _, enclosed r | _, _, recursive r | _, _, outlived r => r.Uses ok
  | _, _, handle r next rescue => r.Uses ok ∧ (∀ a, (next a).Uses ok) ∧ rescue.Uses ok
  | _, _, iterate step _ => ∀ b, (step b).Uses ok

/-- **Operations in step make runs in step.** The induction is on the rule, and each case is the
lemma for the operator that the rule is run by. Of the limits it only matters which run is halted
first. -/
theorem Uses.inStep {R : Region} {halt : Halt} {ok : {α : Type} → Operation α → Prop}
    {perform perform' : {α : Type} → Operation α → Behaviour α}
    (hok : ∀ {α : Type} (o : Operation α), ok o →
      Behaviour.InStep R halt (perform o) (perform' o))
    {limits limits' : Limits} (depth : halt.Allows limits.depth limits'.depth)
    (rounds : halt.Allows limits.rounds limits'.rounds) {r : Rule Γ α} (h : r.Uses ok)
    {ρ ρ' : Environment Γ} (hρ : ρ.InStep R halt ρ') :
    Behaviour.InStep R halt (r.runWith perform limits ρ) (r.runWith perform' limits' ρ') := by
  induction r with
  | pure a => exact .pure a
  | bind r next ihr ihnext => exact (ihr h.1 hρ).andThen fun a => ihnext a (h.2 a) hρ
  | fail cause => exact .fail cause
  | operation o => exact hok o h
  | attempt r ih => exact (ih h hρ).attempt
  | rewind r ih => exact (ih h hρ).rewind
  | atomically r ih => exact (ih h hρ).atomically
  | handle r next rescue ihr ihnext ihrescue =>
    exact (ihr h.1 hρ).handle (fun a => ihnext a (h.2.1 a) hρ) (ihrescue h.2.2 hρ)
  | raise => exact .raise
  | rephrase reason r ih => exact (ih h hρ).rephrase reason
  | many r ih => exact (ih h hρ).repeatedly rounds
  | iterate step b ih => exact .iterate (fun b => ih b (h b) hρ) rounds b
  | speculate r ih => exact (ih h hρ).speculate
  | enclosed r ih => exact (ih h hρ).enclosed
  | recursive body ih => exact .fixed (fun b c hbc => ih h (hρ.extend (.some hbc))) depth
  | reference v =>
    have hv := hρ _ v
    rw [runWith, runWith]
    generalize ρ _ v = b, ρ' _ v = b' at hv ⊢
    cases hv with
    | none => exact .fail .undefined
    | some inStep => exact inStep
  | outlived r ih => exact ih h (hρ.extend .none)

end Rule

/-! ## Any offsets -/

/-- Any offsets at all. -/
def Region.anywhere (text : List Char) : Region where
  text := text
  cursor _ := True
  other _ := True
  other_of_cursor _ _ := trivial
  calm := False
  isPlace_of_cursor h := h.elim

/-- No state lies outside of a region that asks nothing, so statements about single runs can be had
from those about runs in step. -/
theorem State.holds_anywhere (s : State) : (Region.anywhere s.text).Holds s :=
  ⟨rfl, trivial, trivial, fun _ _ => trivial⟩

/-- With all offsets in the region, all operations stay in it, those that are given an offset by
hand and patterns that find their text elsewhere included. -/
theorem Operation.inStep_anywhere (o : Operation α) (text : List Char) (halt : Halt) :
    Behaviour.InStep (Region.anywhere text) halt o.run o.run :=
  fun _ hs => hs.operation (fun _ _ _ => trivial) (.inr fun _ => trivial) fun _ _ => trivial

end Descent
