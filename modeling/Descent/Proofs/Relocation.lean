/-
Reading in the middle of a text.

What a composed parser does depends on what lies ahead of it and on nothing else. Run in
the middle of a text, it does what it does on the rest of that text alone, with all
offsets larger by the length of what was left out. So a run may be taken back to an
earlier place and repeated, and a state may be handed on from one parser to the next.
-/
import Descent.Proofs.Composed

set_option autoImplicit false

namespace Descent

open Text

variable {Γ : Scope} {α : Type}

/-- **Only the rest counts.** The run behind `front` ends as the run on `rest` alone does,
with the same value or the same failure, and `front` is counted in its offsets. -/
theorem Parser.Composed.run_behind {p : Parser Γ α} (h : p.Composed) (limits : Limits)
    (front rest : String) (f : Failure) :
    let moved (n : Nat) : Nat := byteLength front.toList + n
    let behind := p.rule.run limits .undefined
      { State.start (front ++ rest) with cursor := moved 0, failure := f }
    match p.rule.run limits .undefined (.start rest) with
    | .done a t => ∃ t', behind = .done a t' ∧ t'.cursor = moved t.cursor
    | .failed t =>
      ∃ t', behind = .failed t' ∧ t'.cursor = moved t.cursor ∧
        t'.failure = { t.failure with position := moved t.failure.position }
    | .fault => behind = .fault
    | .unfinished => behind = .unfinished := by
  intro moved behind
  have aligned : State.Aligned front.toList (.start rest)
      { State.start (front ++ rest) with cursor := moved 0, failure := f } :=
    ⟨String.toList_append, rfl, rfl⟩
  have tied := Rule.Within.tied (fun _ ho => Operation.tied_of_isLocal ho) limits h.isLocal
    Environment.Tied.undefined _ _ aligned (by simp)
  -- From here on only how the two runs are tied counts, and not what they are.
  generalize p.rule.run limits .undefined (.start rest) = q at tied ⊢
  change Run.Tied _ _ _ q behind at tied
  generalize behind = q' at tied ⊢
  cases tied with
  | @done a t t' aligned' slots => exact ⟨t', rfl, aligned'.cursor⟩
  | @failed t t' aligned' agree => exact ⟨t', rfl, aligned'.cursor, agree⟩
  | fault => rfl
  | unfinished => rfl

/-- Three letters in, after one of two bytes, the second alternative is the one whose failure is
reported, two letters further on. -/
theorem Parser.Composed.run_behind_choice :
    let p : Parser [] Char :=
      .oneOf [.char 'b', ((Parser.literal "ab").pair (.char 'c')).map Prod.snd]
    p.Composed ∧
      ∃ t, p.rule.run ⟨1, 1⟩ .undefined
          { State.start "żxyabd" with cursor := 4, failure := ⟨.expectedEnd, "?", 1⟩ } =
            .failed t ∧ t.cursor = 4 ∧
        t.failure = ⟨.literalMismatch, "Expected 'c', but got 'd'.", 6⟩ := by
  have composed : Parser.Composed (Γ := [])
      (.oneOf [.char 'b', ((Parser.literal "ab").pair (.char 'c')).map Prod.snd]) := by
    refine .oneOf fun p hp => ?_
    simp only [List.mem_cons, List.not_mem_nil, or_false] at hp
    rcases hp with rfl | rfl
    · exact .char 'b'
    · exact .map _ (.pair (.literal "ab") (.char 'c'))
  exact ⟨composed, Parser.Composed.run_behind composed ⟨1, 1⟩ "żxy" "abd" ⟨.expectedEnd, "?", 1⟩⟩

end Descent
