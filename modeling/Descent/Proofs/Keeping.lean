/-
What a run leaves as it was.

No operation changes the text, so no run does. The places that are kept are another matter: an
operation adds to them, and what it added is still there when the attempt that it was part of
is taken back. But a parser that is written by hand is enclosed, with places of its own. A rule
is *tidy* when it keeps places nowhere else (`Rule.Tidy`), and such a rule leaves those it finds
as they are.

Both facts are one statement, with tidiness asked for or not (`Rule.keeps`). It is put so
because a tidy rule may enclose any rule at all, and of that one only the text can be followed.
-/
import Descent.Proofs.Advance
import Descent.Proofs.Composed

set_option autoImplicit false

namespace Descent

open Text

variable {Γ : Scope} {α β : Type} {tidy : Prop}

/-! ## States -/

/-- The second state has the text of the first and, if that is asked for, its bookmarks. -/
structure State.Keeps (tidy : Prop) (s t : State) : Prop where
  text : t.text = s.text
  bookmarks : tidy → t.bookmarks = s.bookmarks

namespace State.Keeps

variable {s t u : State}

/-- A step that does nothing keeps everything, which begins each chain of steps. -/
theorem refl (s : State) : s.Keeps tidy s :=
  ⟨rfl, fun _ => rfl⟩

/-- What is kept by two steps is kept by both together, so a run may be followed from one operation
to the next. -/
theorem trans (h : s.Keeps tidy t) (h' : t.Keeps tidy u) : s.Keeps tidy u :=
  ⟨h'.text.trans h.text, fun asked => (h'.bookmarks asked).trans (h.bookmarks asked)⟩

/-- What is asked for no more is not missed. A tidy rule is used in this way where only the text is
followed. -/
theorem forget (h : s.Keeps tidy t) : s.Keeps False t :=
  ⟨h.text, False.elim⟩

/-- Being a place is a matter of the text alone, and the text is kept. So an offset that was a place
before a run is still one behind it. -/
theorem isPlace {n : Nat} (h : s.Keeps tidy t) (place : IsPlace n s.text = true) :
    IsPlace n t.text = true := by
  rwa [h.text]

end State.Keeps

/-! ## Runs -/

/-- The state that the run ended in keeps what the given one has. -/
inductive Run.Keeps (tidy : Prop) (s : State) : Run α → Prop
  | done (a : α) {t : State} (h : s.Keeps tidy t) : Keeps tidy s (.done a t)
  | failed {t : State} (h : s.Keeps tidy t) : Keeps tidy s (.failed t)
  | fault : Keeps tidy s .fault
  | unfinished : Keeps tidy s .unfinished

/-- From every state, the run keeps what that has. -/
def Behaviour.Keeps (tidy : Prop) (b : Behaviour α) : Prop :=
  ∀ s : State, (b s).Keeps tidy s

namespace Run.Keeps

variable {s t : State} {q : Run α}

/-- The same of the state that a run ended in. A tidy rule that is enclosed is asked about its text
only, by this. -/
theorem forget (h : q.Keeps tidy s) : q.Keeps False s := by
  cases h with
  | done a h => exact .done a h.forget
  | failed h => exact .failed h.forget
  | fault => exact .fault
  | unfinished => exact .unfinished

/-- A run that goes on from a state that kept all keeps all. -/
theorem behind (way : s.Keeps tidy t) (h : q.Keeps tidy t) : q.Keeps tidy s := by
  cases h with
  | done a h => exact .done a (way.trans h)
  | failed h => exact .failed (way.trans h)
  | fault => exact .fault
  | unfinished => exact .unfinished

/-- The run that follows is followed from the state where the first one ended, whatever that value
was. -/
theorem andThen {next : α → Behaviour β} (h : q.Keeps tidy s)
    (hnext : ∀ a, (next a).Keeps tidy) : (q.andThen next).Keeps tidy s := by
  cases h with
  | done a h => exact (hnext a _).behind h
  | failed h => exact .failed h
  | fault => exact .fault
  | unfinished => exact .unfinished

/-- A rescue starts from the state of the failure, so keeping has to be known of failed runs as
well. -/
theorem orElse {rescue : Behaviour α} (h : q.Keeps tidy s) (hrescue : rescue.Keeps tidy) :
    (q.orElse rescue).Keeps tidy s := by
  cases h with
  | done a h => exact .done a h
  | failed h => exact (hrescue _).behind h
  | fault => exact .fault
  | unfinished => exact .unfinished

/-- A result is mapped without touching the state, so nothing has to be kept. -/
theorem map (h : q.Keeps tidy s) (f : α → β) : (q.map f).Keeps tidy s :=
  h.andThen fun a t => .done (f a) (.refl t)

end Run.Keeps

/-! ## Operations -/

namespace Operation

/-- Keeps no place. -/
def isTidy : Operation α → Bool
  | .bookmark _ => false
  | _ => true

/-- Operations that look at what lies ahead fault where the cursor is at no place, and a fault has
nothing to keep. -/
private theorem keeps_withAhead {s : State} {f : List Char → Run α}
    (h : ∀ rest, (f rest).Keeps tidy s) : (s.withAhead f).Keeps tidy s := by
  rw [State.withAhead]
  cases s.ahead? with
  | some rest => exact h rest
  | none => exact .fault

end Operation

namespace Behaviour.Keeps

/-- Failing writes the slot of failures and nothing else, and the slot is not among the things that
are kept here. -/
theorem fail (cause : Cause) : (State.fail cause : Behaviour α).Keeps tidy :=
  fun _ => .failed ⟨rfl, fun _ => rfl⟩

/-- To move is to set the cursor or to fault, and the cursor is not among what is kept. -/
theorem moveTo (n : Nat) : (State.moveTo n).Keeps tidy := by
  intro s
  rw [State.moveTo]
  split
  · exact .done () ⟨rfl, fun _ => rfl⟩
  · exact .fault

/-- **Each operation keeps the text**, and each but one the bookmarks. This is the only lemma here
that looks at operations one by one. -/
theorem operation {o : Operation α} (h : tidy → o.isTidy = true) : o.run.Keeps tidy := by
  have advanced (s : State) (consumed : List Char) : s.Keeps tidy (s.advance consumed) :=
    ⟨rfl, fun _ => rfl⟩
  have peek : State.peek.Keeps tidy := by
    intro s
    refine Operation.keeps_withAhead fun rest => ?_
    cases rest with
    | nil => exact fail _ s
    | cons c _ => exact .done c (.refl s)
  intro s
  cases o with
  | peek => exact peek s
  | char => exact (peek s).andThen fun c t => .done c (advanced t [c])
  | literal expected =>
    refine Operation.keeps_withAhead fun rest => ?_
    dsimp only
    split
    · exact .done expected (advanced s _)
    · split <;> exact fail _ s
  | matchPattern pattern =>
    refine Operation.keeps_withAhead fun rest => ?_
    cases pattern.find? rest with
    | some found => exact .done _ (advanced s found)
    | none => exact fail _ s
  | ending =>
    refine Operation.keeps_withAhead fun rest => ?_
    cases rest with
    | nil => exact .done () (.refl s)
    | cons c _ => exact fail _ s
  | skipBlanks => exact Operation.keeps_withAhead fun rest => .done _ (advanced s _)
  | rest => exact Operation.keeps_withAhead fun rest => .done _ (.refl s)
  | wholeText | position | isAtEnd | lastFailure => exact .done _ (.refl s)
  | moveTo offset => exact moveTo offset s
  | returnTo name => exact moveTo (s.bookmarked name) s
  | bookmark name => exact .done () ⟨rfl, fun asked => by cases h asked⟩
  | locate offset =>
    show (State.locate offset s).Keeps tidy s
    rw [State.locate]
    split
    · exact .done _ (.refl s)
    · exact .fault

/-! ## Operators -/

variable {b : Behaviour α}

/-- Nothing happens but that a value is given, so all is kept whatever that is. -/
theorem pure (a : α) : (Behaviour.pure a).Keeps tidy :=
  fun s => .done a (.refl s)

/-- A failure is raised again from the state as it is, without a new record. -/
theorem raise : (Behaviour.raise : Behaviour α).Keeps tidy :=
  fun s => .failed (.refl s)

/-- The same of behaviours, where the second has to keep all from every state that the first may
lead to. -/
theorem andThen {b : Behaviour β} {next : β → Behaviour α} (h : b.Keeps tidy)
    (hnext : ∀ a, (next a).Keeps tidy) : (Behaviour.andThen b next).Keeps tidy :=
  fun s => (h s).andThen hnext

/-- What is attempted leaves the state that its run left, failed or not, so what the run kept is
kept. -/
theorem attempt (h : b.Keeps tidy) : (Behaviour.attempt b).Keeps tidy :=
  fun s => ((h s).map some).orElse (pure none)

/-- Going back on failure sets the cursor, and the cursor is not among what is kept. -/
theorem rewind (h : b.Keeps tidy) : (Behaviour.rewind b).Keeps tidy :=
  fun s => (h s).orElse fun t => (moveTo s.cursor t).andThen fun _ => raise

/-- Neither is the place of the report, which an atomic run sets as well. Bookmarks that were added
before a failure stay, which is why tidiness is asked of all parts. -/
theorem atomically (h : b.Keeps tidy) : (Behaviour.atomically b).Keeps tidy :=
  fun s => (h s).orElse fun t =>
    (moveTo s.cursor t).andThen fun _ _ => .failed ⟨rfl, fun _ => rfl⟩

/-- Both ways out of the first run are followed, the rescue from the state that the failure left. -/
theorem handle {b : Behaviour β} {next : β → Behaviour α} {rescue : Behaviour α}
    (h : b.Keeps tidy) (hnext : ∀ a, (next a).Keeps tidy) (hrescue : rescue.Keeps tidy) :
    (Behaviour.handle b next rescue).Keeps tidy := by
  intro s
  have first := h s
  rw [Behaviour.handle]
  generalize b s = q at first
  cases first with
  | done a kept => exact (hnext a _).behind kept
  | failed kept => exact (hrescue _).behind kept
  | fault => exact .fault
  | unfinished => exact .unfinished

/-- Rephrasing a failure changes its reason, which is in the slot. -/
theorem rephrase (reason : String) (h : b.Keeps tidy) :
    (Behaviour.rephrase reason b).Keeps tidy :=
  fun s => (h s).orElse fun _ => .failed ⟨rfl, fun _ => rfl⟩

/-- By induction on the rounds: each begins where the one before ended. -/
theorem repeatedly (h : b.Keeps tidy) (rounds : Nat) :
    (Behaviour.repeatedly b rounds).Keeps tidy := by
  induction rounds with
  | zero => exact fun _ => .unfinished
  | succ rounds ih =>
    intro s
    have first := h s
    rw [Behaviour.repeatedly]
    generalize b s = q at first
    cases first with
    | done a kept => exact ((ih _).behind kept).map _
    | failed kept => exact ((moveTo s.cursor _).behind kept).map _
    | fault => exact .fault
    | unfinished => exact .unfinished

/-- By induction on the rounds again, where a round either gives the next value to begin with or the
result. -/
theorem iterate {step : β → Behaviour (β ⊕ α)} (h : ∀ x, (step x).Keeps tidy) (rounds : Nat)
    (x : β) : (Behaviour.iterate step rounds x).Keeps tidy := by
  induction rounds generalizing x with
  | zero => exact fun _ => .unfinished
  | succ rounds ih =>
    intro s
    refine (h x s).andThen fun y => ?_
    cases y with
    | inl x => exact ih x
    | inr a => exact pure a

/-- Of the copy only the bookmarks come back, and these are asked about only where the rule is tidy.
-/
theorem speculate (h : b.Keeps tidy) : (Behaviour.speculate b).Keeps tidy := by
  intro s
  have copy := attempt h s
  rw [Behaviour.speculate]
  generalize Behaviour.attempt b s = q at copy
  cases copy with
  | done o kept =>
    -- The text is that of the state outside, and not of the copy.
    exact .done _ ⟨rfl, kept.bookmarks⟩
  | failed kept => exact .failed kept
  | fault => exact .fault
  | unfinished => exact .unfinished

/-- What is enclosed may keep places in any case, as they are dropped with its own list of bookmarks
behind it. -/
theorem enclosed (h : b.Keeps False) : (Behaviour.enclosed b).Keeps tidy := by
  intro s
  have inside := h { s with bookmarks := [] }
  rw [Behaviour.enclosed]
  generalize b { s with bookmarks := [] } = q at inside
  cases inside with
  | done a kept => exact .done a ⟨kept.text, fun _ => rfl⟩
  | failed kept => exact .failed ⟨kept.text, fun _ => rfl⟩
  | fault => exact .fault
  | unfinished => exact .unfinished

/-- What is defined in terms of itself keeps all, if its definition does whenever its stand-in does.
By induction on the depth; at depth zero the run is unfinished. -/
theorem fixed {define : Behaviour α → Behaviour α}
    (h : ∀ b : Behaviour α, b.Keeps tidy → (define b).Keeps tidy) (depth : Nat) :
    (Behaviour.fixed define depth).Keeps tidy := by
  induction depth with
  | zero => exact fun _ => .unfinished
  | succ depth ih => exact h _ ih

end Behaviour.Keeps

/-! ## Rules -/

/-- Each stand-in, where it is defined, keeps what it finds. -/
def Environment.Keeps (tidy : Prop) (ρ : Environment Γ) : Prop :=
  ∀ (α : Type) (v : StandIn Γ α), ∀ b ∈ ρ α v, b.Keeps tidy

namespace Environment.Keeps

variable {ρ : Environment Γ}

/-- Where nothing is defined there is nothing that could fail to keep. -/
theorem undefined : (Environment.undefined : Environment Γ).Keeps tidy :=
  fun _ _ _ h => by cases h

/-- One more stand-in, defined or not, is asked about in the same way as those before. -/
theorem extend (h : ρ.Keeps tidy) {o : Option (Behaviour α)} (ho : ∀ b ∈ o, b.Keeps tidy) :
    (ρ.extend o).Keeps tidy :=
  Environment.forall_extend (C := fun _ _ b => b.Keeps tidy) ho h

/-- An environment whose stand-ins keep all serves within an enclosure as well, where only the text
is followed. -/
theorem forget (h : ρ.Keeps tidy) : ρ.Keeps False :=
  fun α v b hb s => (h α v b hb s).forget

end Environment.Keeps

namespace Rule

/-- The rule keeps places only in what it encloses. -/
def Tidy : {Γ : Scope} → {α : Type} → Rule Γ α → Prop
  | _, _, pure _ | _, _, fail _ | _, _, reference _ | _, _, raise | _, _, enclosed _ => True
  | _, _, bind r next => r.Tidy ∧ ∀ a, (next a).Tidy
  | _, _, operation o => o.isTidy = true
  | _, _, attempt r | _, _, rewind r | _, _, atomically r | _, _, rephrase _ r | _, _, many r
  | _, _, speculate r | _, _, recursive r | _, _, outlived r => r.Tidy
  | _, _, handle r next rescue => r.Tidy ∧ (∀ a, (next a).Tidy) ∧ rescue.Tidy
  | _, _, iterate step _ => ∀ b, (step b).Tidy

/-- Rules that are confined to operations that keep no place are tidy. -/
theorem Within.isTidy {may : Permission}
    (hmay : ∀ {α : Type} (o : Operation α), may o = true → o.isTidy = true) {held : Bool}
    {r : Rule Γ α} (h : r.Within may held) : r.Tidy := by
  induction r generalizing held with
  | pure | fail | reference | raise | enclosed => trivial
  | bind _ _ ihr ihnext => exact ⟨ihr h.1, fun a => ihnext a (h.2 a)⟩
  | operation o => exact hmay o h
  | handle _ _ _ ihr ihnext ihrescue =>
    exact ⟨ihr h.1, fun a => ihnext a (h.2.1 a), ihrescue h.2.2⟩
  | iterate _ _ ih => exact fun b => ih b (h b)
  | speculate => exact h.elim
  | attempt _ ih | rewind _ ih | atomically _ ih | rephrase _ _ ih | many _ ih
  | recursive _ ih | outlived _ ih => exact ih h

/-- **Rules keep the text, and tidy rules the bookmarks.** By induction on the rule, with both facts
at once, since an enclosed rule needs the first without the second. -/
theorem keeps (limits : Limits) {r : Rule Γ α} (h : tidy → r.Tidy) {ρ : Environment Γ}
    (hρ : ρ.Keeps tidy) : (r.run limits ρ).Keeps tidy := by
  -- For tidiness asked for or not, as of what is enclosed it is not.
  induction r generalizing tidy with
  | pure a => exact .pure a
  | bind r next ihr ihnext =>
    exact (ihr (fun asked => (h asked).1) hρ).andThen fun a =>
      ihnext a (fun asked => (h asked).2 a) hρ
  | fail cause => exact .fail cause
  | operation o => exact .operation h
  | attempt r ih => exact (ih h hρ).attempt
  | rewind r ih => exact (ih h hρ).rewind
  | atomically r ih => exact (ih h hρ).atomically
  | handle r next rescue ihr ihnext ihrescue =>
    exact (ihr (fun asked => (h asked).1) hρ).handle
      (fun a => ihnext a (fun asked => (h asked).2.1 a) hρ)
      (ihrescue (fun asked => (h asked).2.2) hρ)
  | raise => exact .raise
  | rephrase reason r ih => exact (ih h hρ).rephrase reason
  | many r ih => exact (ih h hρ).repeatedly limits.rounds
  | iterate step b ih =>
    exact .iterate (fun b => ih b (fun asked => h asked b) hρ) limits.rounds b
  | speculate r ih => exact (ih h hρ).speculate
  | enclosed r ih => exact (ih False.elim hρ.forget).enclosed
  | recursive body ih =>
    exact .fixed (fun b hb => ih h (hρ.extend fun b' hb' => by cases hb'; exact hb)) limits.depth
  | @reference _ α v =>
    rw [run]
    cases hv : ρ α v with
    | some b => exact hρ α v b hv
    | none => exact .fail .undefined
  | outlived r ih => exact ih h (hρ.extend fun _ hb => by cases hb)

end Rule

end Descent
