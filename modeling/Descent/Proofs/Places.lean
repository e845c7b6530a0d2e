/-
Runs that keep to places.

An offset names a place when no character lies across it. A run that is given no other
offsets than it was told before, and whose patterns match where they are tried, stands at
a place whenever it stops, reports failures at places, and comes to no fault
(`Rule.Returning.run_sound`). So all that cuts a text, or names a line and a column, may do so.

What a run was told cannot be read off its rule, as it may come by an offset in any way. It
is watched instead. A watch knows some offsets. It gives the run up where this is told one
that it does not know, and halts it where it is given one. A run that keeps to what it was
told is never halted, whatever the watch knows, so it makes no difference how a watch would
halt it (`Rule.Returning`). And if that makes no difference for a watch that knows just what
the run was told before, then the run was given nothing else.

Watched by one that knows all places, the run is in step with the run itself.
-/
import Descent.Proofs.Composed
import Descent.Proofs.InStep
import Descent.Proofs.Token.Quoted

set_option autoImplicit false

namespace Descent

open Text

variable {Γ : Scope} {α β : Type}

namespace Text

/-- What lies between two offsets, where these are places in this order. -/
def slice? (cs : List Char) (first last : Nat) : Option (List Char) :=
  if first ≤ last then (dropBytes first cs).bind (takeBytes (last - first)) else none

/-- The first part of a text can be cut off where it ends, as the end of a part is a place. -/
theorem slice?_front (front back : List Char) :
    slice? (front ++ back) 0 (byteLength front) = some front := by
  rw [slice?, if_pos (Nat.zero_le _), dropBytes_zero]
  exact takeBytes_append front back

/-- Every text begins at a place, so every run does. -/
theorem isPlace_zero (cs : List Char) : IsPlace 0 cs = true := by
  rw [IsPlace, dropBytes_zero]
  rfl

end Text

/-! ## Soundness -/

/-- The offset is a place of the text. So it is within the text, and has a line and a column. -/
structure Text.Sound (text : List Char) (n : Nat) : Prop where
  isPlace : IsPlace n text = true
  le : n ≤ byteLength text
  located : ∃ l, Location.ofOffset? text n = some l

/-- To be a place is enough: a place is within the text, and it has a line and a column. -/
theorem Text.Sound.of_isPlace {text : List Char} {n : Nat} (h : IsPlace n text = true) :
    Text.Sound text n :=
  ⟨h, Text.le_of_isPlace h, Location.exists_of_isPlace h⟩

instance (text : List Char) (n : Nat) : Decidable (Text.Sound text n) :=
  decidable_of_iff (IsPlace n text = true) ⟨.of_isPlace, Text.Sound.isPlace⟩

/-- The cursor is sound in the text, and so is where the last failure is reported. -/
def State.Sound (text : List Char) (t : State) : Prop :=
  Text.Sound text t.cursor ∧ Text.Sound text t.failure.position

instance (text : List Char) (t : State) : Decidable (t.Sound text) :=
  inferInstanceAs (Decidable (_ ∧ _))

/-- The run came to no fault, and where it stopped its state is sound. -/
inductive Run.Sound (text : List Char) : Run α → Prop
  | done (a : α) {t : State} (h : t.Sound text) : Sound text (.done a t)
  | failed {t : State} (h : t.Sound text) : Sound text (.failed t)
  | unfinished : Sound text .unfinished

/-- A run that stops where the state is not sound comes to a fault instead. -/
def Run.checked (text : List Char) : Run α → Run α
  | .done a t => if t.Sound text then .done a t else .fault
  | .failed t => if t.Sound text then .failed t else .fault
  | .fault => .fault
  | .unfinished => .unfinished

/-- What the operation does where it is checked. -/
def Operation.checked (text : List Char) (o : Operation α) : Behaviour α := fun s =>
  (o.run s).checked text

/-! ## Watching a run -/

namespace Operation

/-- The offset that is told by the operation: that of the cursor, or of the last failure. -/
def told : Operation α → State → Option Nat
  | .position, s | .bookmark _, s => some s.cursor
  | .lastFailure, s => some s.failure.position
  | _, _ => none

/-- What the operation does under a watch that knows some offsets. The beginning of the text
may be given at any time. -/
def watched (known : Nat → Bool) (halt : Halt) (o : Operation α) : Behaviour α := fun s =>
  if (o.told s).any fun n => !known n then .unfinished
  else if (o.given s).any fun n => n != 0 && !known n then halt.run
  else o.run s

end Operation

/-- The run from the state moves to no offset, and locates none, that it was not told before
nor is the beginning. -/
def Rule.Returning (limits : Limits) (r : Rule [] α) (s : State) : Prop :=
  ∀ known : Nat → Bool,
    r.runWith (Operation.watched known .fault) limits .undefined s =
      r.runWith (Operation.watched known .unfinished) limits .undefined s

/-! ## Places -/

/-- All offsets are places of the text, and there is no fault. -/
def Region.places (text : List Char) : Region where
  text := text
  cursor n := IsPlace n text = true
  other n := IsPlace n text = true
  other_of_cursor _ h := h
  calm := True
  isPlace_of_cursor _ _ h := h

variable {text : List Char} {s t : State} {halt : Halt}

/-- The region of all places was made for this: what it says of a state is that it is sound. -/
theorem Region.Holds.sound (h : (Region.places text).Holds s) : s.Sound text :=
  ⟨.of_isPlace h.cursor, .of_isPlace h.failure⟩

namespace Run.InStep

variable {q r : Run α}

/-- A run in step with one that was not halted has kept to the region, and stopped at a sound state
if it stopped. -/
theorem sound (h : q.InStep (Region.places text) halt r) (running : q ≠ halt.run) :
    r.Sound text := by
  cases h with
  | done a h => exact .done a h.sound
  | failed h => exact .failed h.sound
  | fault agitated => exact absurd trivial agitated
  | unfinished => exact .unfinished
  | halted => exact absurd rfl running

/-- No check fails where a run is in step with one in the region of places, so the checks may be
made or left out. -/
theorem checked (h : q.InStep (Region.places text) halt r) :
    q.InStep (Region.places text) halt (r.checked text) := by
  cases h with
  | done a h =>
    rw [Run.checked, if_pos h.sound]
    exact .done a h
  | failed h =>
    rw [Run.checked, if_pos h.sound]
    exact .failed h
  | fault agitated => exact .fault agitated
  | unfinished => exact .unfinished
  | halted => exact .halted _

end Run.InStep

/-- At the start the cursor and the failure that was never reported are both at the beginning. -/
theorem State.holds_start (text : String) : (Region.places text.toList).Holds (.start text) :=
  ⟨rfl, isPlace_zero _, isPlace_zero _, fun _ hb => by cases hb⟩

namespace Operation

/-- A watch that knows all places halts an operation only where it is given something else. -/
theorem watched_inStep {o : Operation α} (leads : o.Leads) :
    Behaviour.InStep (Region.places text) halt
      (o.watched (fun n => IsPlace n text) halt) o.run := by
  intro s hs
  rw [watched]
  have told : ¬ ((o.told s).any fun n => !IsPlace n text) = true := by
    have cursor : IsPlace s.cursor text = true := hs.cursor
    have failure : IsPlace s.failure.position text = true := hs.failure
    cases o <;> simp [Operation.told, cursor, failure]
  rw [if_neg told]
  split
  · exact .halted _
  · next given =>
    refine hs.operation (fun u cs ahead => ?_) (.inl leads) fun n hn => ?_
    · have place := (State.Through.advance ahead).isPlace
      rwa [hs.text] at place
    · rw [hn] at given
      cases place : IsPlace n text with
      | true => exact place
      | false =>
        have start : n ≠ 0 := by
          rintro rfl
          rw [isPlace_zero] at place
          cases place
        exact absurd (by simp [start, place]) given

end Operation

/-- A rule that is given no offset keeps to those that it was told. -/
theorem Rule.returning_of_uses {r : Rule [] α} (h : r.Uses fun o => ∀ s, o.given s = none)
    (limits : Limits) (s : State) : r.Returning limits s := by
  intro known
  refine Run.InStep.eq_of_halts (R := Region.anywhere s.text) fun halt => ?_
  refine h.inStep (fun o ho t ht => ?_) (.inl rfl) (.inl rfl) .undefined s s.holds_anywhere
  rw [Operation.watched, Operation.watched, ho t]
  split
  · exact .unfinished
  · exact o.inStep_anywhere s.text halt t ht

/-- What a rule is confined to may be put as a property of the operations it uses. -/
theorem Rule.Within.uses {may : Permission} {ok : {α : Type} → Operation α → Prop}
    (hok : ∀ {α : Type} (o : Operation α), may o = true → ok o) {held : Bool} {r : Rule Γ α}
    (h : r.Within may held) : r.Uses ok := by
  induction r generalizing held with
  | pure | fail | reference | raise => trivial
  | bind _ _ ihr ihnext => exact ⟨ihr h.1, fun a => ihnext a (h.2 a)⟩
  | operation o => exact hok o h
  | handle _ _ _ ihr ihnext ihrescue =>
    exact ⟨ihr h.1, fun a => ihnext a (h.2.1 a), ihrescue h.2.2⟩
  | iterate _ _ ih => exact fun b => ih b (h b)
  | speculate => exact h.elim
  | attempt _ ih | rewind _ ih | atomically _ ih | rephrase _ _ ih | many _ ih | enclosed _ ih
  | recursive _ ih | outlived _ ih => exact ih h

/-- No parser that is put together from those of this library is given an offset. -/
theorem Parser.Composed.returning {p : Parser [] α} (h : p.Composed) (limits : Limits) (s : State) :
    p.rule.Returning limits s :=
  Rule.returning_of_uses (h.isLocal.uses fun o ho t => by cases o <;> first | rfl | cases ho)
    limits s

/-! ## Sequences of rules -/

/-- The rules one after another, each from where the one before it stopped, whether that
succeeded or failed. -/
def Rule.inTurn : List ((α : Type) × Rule Γ α) → Rule Γ Unit
  | [] => .pure ()
  | ⟨_, r⟩ :: steps => .bind (.attempt r) fun _ => inTurn steps

namespace Rule

variable {limits : Limits}

/-- Rules in turn use no other operations than they do one by one, since to attempt a rule is none.
-/
theorem uses_inTurn {ok : {α : Type} → Operation α → Prop} {steps : List ((α : Type) × Rule Γ α)}
    (h : ∀ step ∈ steps, step.2.Uses ok) : (inTurn steps).Uses ok := by
  induction steps with
  | nil => trivial
  | cons step steps ih =>
    exact ⟨h step List.mem_cons_self, fun _ => ih fun r hr => h r (List.mem_cons_of_mem step hr)⟩

/-- The first rules of several, and then the others. This splits a sequence where a state is to be
looked at. -/
theorem runWith_inTurn_append (perform : {α : Type} → Operation α → Behaviour α)
    (before after : List ((α : Type) × Rule Γ α)) (ρ : Environment Γ) (s : State) :
    (inTurn (before ++ after)).runWith perform limits ρ s =
      ((inTurn before).runWith perform limits ρ s).andThen fun _ =>
        (inTurn after).runWith perform limits ρ := by
  induction before generalizing s with
  | nil => rfl
  | cons step before ih =>
    show (Behaviour.attempt (step.2.runWith perform limits ρ) s).andThen _ =
      ((Behaviour.attempt (step.2.runWith perform limits ρ) s).andThen _).andThen _
    cases Behaviour.attempt (step.2.runWith perform limits ρ) s with
    | done a t => exact ih t
    | _ => rfl

/-- Watched by one that knows all places, a rule is in step with what it does by itself. -/
theorem Uses.watched_inStep {r : Rule [] α} (leads : r.Uses Operation.Leads) (limits : Limits)
    (halt : Halt) :
    Behaviour.InStep (Region.places text) halt
      (r.runWith (Operation.watched (fun n => IsPlace n text) halt) limits .undefined)
      (r.run limits .undefined) := by
  rw [← runWith_run]
  exact leads.inStep (fun _ ho => Operation.watched_inStep ho) (.inl rfl) (.inl rfl) .undefined

/-- So it is with all operations checked, by the lemma on checks and the one on watches together. -/
theorem Uses.checked_inStep {r : Rule [] α} (leads : r.Uses Operation.Leads) (limits : Limits)
    (halt : Halt) :
    Behaviour.InStep (Region.places text) halt
      (r.runWith (Operation.watched (fun n => IsPlace n text) halt) limits .undefined)
      (r.runWith (Operation.checked text) limits .undefined) :=
  leads.inStep (fun _ ho s hs => (Operation.watched_inStep ho s hs).checked) (.inl rfl) (.inl rfl)
    .undefined

/-- The first rules of several that keep to what they are told are not halted. -/
theorem Returning.ne_fault {before after : List ((α : Type) × Rule [] α)} {text : String}
    (returning : (inTurn (before ++ after)).Returning limits (.start text))
    (leads : (inTurn (before ++ after)).Uses Operation.Leads) :
    (inTurn before).runWith (Operation.watched (fun n => IsPlace n text.toList) .fault) limits
      .undefined (.start text) ≠ .fault := by
  intro halted
  have alike := returning fun n => IsPlace n text.toList
  rw [runWith_inTurn_append, halted] at alike
  -- Halted in the other way, the whole run comes to no fault.
  have calm := leads.watched_inStep limits .unfinished _ (State.holds_start text)
  rw [← alike] at calm
  generalize (inTurn (before ++ after)).run limits .undefined (.start text) = r at calm
  cases calm with
  | fault agitated => exact agitated trivial

end Rule

/-! ## Slices -/

/-- A text that is wanted and does not stand here has a first character, and what is reported
instead can be cut off from here. -/
theorem State.slice?_actual {wanted cs : List Char} (h : ¬ wanted <+: cs) :
    0 < wanted.length ∧
      slice? cs 0 (byteLength (cs.take wanted.length)) = some (cs.take wanted.length) := by
  constructor
  · refine List.length_pos_iff.2 ?_
    rintro rfl
    exact h List.nil_prefix
  · have cut := slice?_front (cs.take wanted.length) (cs.drop wanted.length)
    rwa [List.take_append_drop] at cut

/-- What is found in quotes is two quotes with a text between them. -/
theorem Token.slice?_quoted {p : Pattern} (hp : p ∈ [doubleQuotedPattern, singleQuotedPattern])
    {cs found : List Char} (h : p.find? cs = some found) :
    slice? found 1 (byteLength found - 1) = some (inner found) := by
  have between {quote : Char} (one : quote.utf8Size = 1) (hquote : quote ≠ '\\')
      (hfound : (quotedRegex quote).first Match.accept none cs = some found) :
      slice? found 1 (byteLength found - 1) = some (inner found) := by
    obtain ⟨body, -, -, -, rfl, -⟩ := (quoted_first_eq_some_iff hquote).1 hfound
    have size : byteLength (quote :: (body ++ [quote])) - 1 = 1 + byteLength body := by
      simp [one]
      omega
    have behind : dropBytes 1 (quote :: (body ++ [quote])) = some (body ++ [quote]) := by
      have := dropBytes_append [quote] (body ++ [quote])
      rwa [byteLength_cons, one] at this
    rw [inner_quoted, size, slice?, if_pos (Nat.le_add_right _ _), behind, Nat.add_sub_cancel_left]
    exact takeBytes_append body [quote]
  rcases List.mem_cons.1 hp with rfl | hp
  · rw [doubleQuotedPattern_find?_eq] at h
    exact between rfl (by decide) h
  · rw [List.mem_singleton.1 hp, singleQuotedPattern_find?_eq] at h
    exact between rfl (by decide) h

/-! ## Runs that keep to places -/

/-- **Every operation leaves the cursor at a place.** Rules are run in turn on a text, whose
patterns lead and which move to no other offsets than they were told before. However many of
them have been run, there was no fault and the state is sound, and so it was after each
operation, for it makes no difference if all are checked. And what they cut out of a text lies
between places. -/
theorem Rule.Returning.run_sound {limits : Limits} {steps : List ((α : Type) × Rule [] α)}
    {text : String} (returning : (inTurn steps).Returning limits (.start text))
    (leads : ∀ step ∈ steps, step.2.Uses Operation.Leads) :
    (∀ before, before <+: steps →
      ((inTurn before).run limits .undefined (.start text)).Sound text.toList ∧
      (inTurn before).runWith (Operation.checked text.toList) limits .undefined (.start text) =
        (inTurn before).run limits .undefined (.start text)) ∧
    (∀ wanted cs : List Char, ¬ wanted <+: cs → 0 < wanted.length ∧
      slice? cs 0 (byteLength (cs.take wanted.length)) = some (cs.take wanted.length)) ∧
    (∀ p ∈ [Token.doubleQuotedPattern, Token.singleQuotedPattern], ∀ cs found,
      p.find? cs = some found →
        slice? found 1 (byteLength found - 1) = some (Token.inner found)) := by
  refine ⟨?_, fun _ _ => State.slice?_actual, fun p hp cs found => Token.slice?_quoted hp⟩
  rintro before ⟨after, rfl⟩
  have running := returning.ne_fault (uses_inTurn leads)
  have first : (inTurn before).Uses Operation.Leads :=
    uses_inTurn fun step hstep => leads step (List.mem_append_left after hstep)
  have runs := first.watched_inStep limits .fault _ (State.holds_start text)
  have checks := first.checked_inStep limits .fault _ (State.holds_start text)
  constructor
  · exact runs.sound running
  · rw [← (checks.eq_or_halted.resolve_right running), runs.eq_or_halted.resolve_right running]

/-- Back to a place behind two bytes, after a choice in which each alternative consumed
something and failed, the last one at the end of the text. -/
theorem Rule.Returning.run_sound_moved_back :
    let steps : List ((α : Type) × Rule [] α) :=
      [⟨_, .char⟩, ⟨_, .operation .position⟩,
        ⟨_, .oneOf [.bind .char fun _ => .literal "óż", .bind (.many .char) fun _ => .literal "x"]⟩,
        ⟨_, .operation (.moveTo 2)⟩, ⟨_, .char⟩, ⟨_, .matchPattern Token.blanks1Pattern⟩]
    (inTurn steps).Returning ⟨1, 5⟩ (.start "żó w") ∧
      ((inTurn steps).run ⟨1, 5⟩ .undefined (.start "żó w")).Sound "żó w".toList := by
  intro steps
  have returning : (inTurn steps).Returning ⟨1, 5⟩ (.start "żó w") := by
    intro known
    -- The text and the cursor behind its first character.
    let s : State := { text := "żó w".toList, cursor := 2 }
    show Run.andThen (Behaviour.attempt (Operation.watched known .fault .position) s) _ =
      Run.andThen (Behaviour.attempt (Operation.watched known .unfinished .position) s) _
    cases h : known 2 with
    | false =>
      have told (halt : Halt) : Operation.watched known halt .position s = .unfinished := by
        simp [Operation.watched, Operation.told, s, h]
      rw [Behaviour.attempt, Behaviour.attempt, told, told]
      rfl
    | true =>
      have told (halt : Halt) : Operation.watched known halt .position s = .done 2 s := by
        simp [Operation.watched, Operation.told, Operation.given, s, h]
        rfl
      have given (halt : Halt) :
          Operation.watched known halt (.moveTo 2) = State.moveTo 2 := by
        funext t
        simp [Operation.watched, Operation.told, Operation.given, h]
        rfl
      simp only [inTurn, Rule.runWith, given]
      show Run.andThen (Behaviour.attempt (Operation.watched known .fault .position) s) _ =
        Run.andThen (Behaviour.attempt (Operation.watched known .unfinished .position) s) _
      rw [Behaviour.attempt, Behaviour.attempt, told, told]
      rfl
  have leads : ∀ step ∈ steps, step.2.Uses Operation.Leads := by
    have choice : (oneOf [.bind .char fun _ => .literal "óż",
        .bind (.many .char) fun _ => .literal "x"] : Rule [] String).Uses Operation.Leads := by
      refine ⟨⟨trivial, fun _ => trivial⟩, fun a => ?_⟩
      cases a with
      | none => exact ⟨trivial, fun _ => trivial⟩
      | some a => exact trivial
    have pattern : (Rule.matchPattern Token.blanks1Pattern : Rule [] String).Uses Operation.Leads :=
      Token.leads_of_mem_patterns (by simp [Token.patterns])
    simpa [steps] using ⟨trivial, trivial, choice, trivial, trivial, pattern⟩
  exact ⟨returning, ((Rule.Returning.run_sound returning leads).1 steps (List.prefix_refl _)).1⟩
end Descent
