/-
What a rejection of JSON says.

However deep inside a text the reading of a value goes wrong, and in whatever way, a reader is
told one of two things (`parse_rejects`). Either no value begins where the text does, white space
apart, and the error names the six kinds of values. Or a value was read, and the error names the
first character behind it that is no white space.

The failures of the parts never come out, as the reader of values is a choice with labels. When it
fails, it does so afresh, at the place where it began, and whatever its alternatives have recorded
is overwritten (`Rule.failure_of_oneOfLabeled`). A nested value is no exception. Its failure is
one of those that the choice around it overwrites.
-/
import Descent.Proofs.Choice
import Descent.Proofs.Json.Parsing
import Descent.Proofs.Json.Progress
import Descent.Proofs.ToEnd

set_option autoImplicit false

namespace Descent

open Text

variable {Γ : Scope} {α : Type} {limits : Limits} {ρ : Environment Γ} {s t : State}

/-! ## What a choice with labels reports -/

/-- Where a row of alternatives fails, what comes last has failed, from where the row began. -/
theorem Rule.exists_run_of_alternatives {rs : List (Rule Γ α)} {last : Rule Γ α}
    (h : (alternatives rs last).run limits ρ s = .failed t) :
    ∃ u, u.cursor = s.cursor ∧ last.run limits ρ u = .failed t := by
  induction rs generalizing s with
  | nil => exact ⟨s, rfl, h⟩
  | cons r rs ih =>
    have tried := (orElse_run r (alternatives rs last)).symm.trans h
    obtain ⟨v, -, again⟩ := Run.orElse_eq_failed_iff.1 tried
    obtain ⟨_, v', moved, others⟩ :=
      (Run.andThen_eq_failed_iff.1 again).resolve_left State.moveTo_ne_failed
    obtain ⟨-, rfl⟩ := State.moveTo_eq_done_iff.1 moved
    obtain ⟨u, cursor, failed⟩ := ih others
    exact ⟨u, cursor, failed⟩

/-- A choice with labels that fails names the labels, where it began. -/
theorem Rule.failure_of_oneOfLabeled {alternatives : List (String × Rule Γ α)}
    (h : (oneOfLabeled alternatives).run limits ρ s = .failed t) :
    t.failure = .ofCause (.noneOf (alternatives.map Prod.fst)) s.cursor := by
  have row : oneOfLabeled alternatives =
      Rule.alternatives (alternatives.map Prod.snd)
        (.fail (.noneOf (alternatives.map Prod.fst))) := by
    rw [oneOfLabeled, Rule.alternatives, List.foldr_map]
  rw [row] at h
  obtain ⟨u, cursor, failed⟩ := exists_run_of_alternatives h
  cases failed
  rw [← cursor]
  rfl

namespace Json

/-! ## Values -/

/-- The kinds of values, as they are named where there is none. -/
def kinds : List String :=
  ["a number", "a string", "a boolean", "null", "an object", "an array"]

/-- The labels of the alternatives, in the order in which they are tried and named. -/
theorem map_fst_alternatives (value : Parser Γ Value) :
    (alternatives value).map Prod.fst = kinds :=
  rfl

/-- No failure inside a value comes out of it. The choice that the value is fails afresh, so even a
nested value is reported by the outermost one. -/
theorem failure_of_value (h : (value : Parser Γ Value).rule.run limits ρ s = .failed t) :
    t.failure = .ofCause (.noneOf kinds) s.cursor := by
  change readValue limits ρ limits.depth s = .failed t at h
  cases depth : limits.depth with
  | zero =>
    rw [depth] at h
    cases h
  | succ n =>
    rw [depth, readValue, Behaviour.fixed, valueOf_rule] at h
    have failure := Rule.failure_of_oneOfLabeled h
    rw [map_fst_alternatives] at failure
    exact failure

/-- A value that is read behind the white space before it has none before itself. -/
theorem Padded.split {cs u rest : List Char} {v : Value} (hcs : cs.dropWhile isBlank = u ++ rest)
    (h : Padded Derives u v) :
    ∃ u' w, cs.dropWhile isBlank = u' ++ (w ++ rest) ∧ Derives u' v ∧ Blanks w := by
  obtain @⟨w, u, w', _, before, derives, after⟩ := h
  obtain ⟨c, ds, rfl, solid⟩ := derives.exists_head
  refine ⟨c :: ds, w', ?_, derives, after⟩
  -- To skip white space once more makes no difference, and skips `w`.
  have idle := (blanks_takeWhile cs).dropWhile_append (cs.dropWhile isBlank)
  rw [List.takeWhile_append_dropWhile] at idle
  rw [idle, hcs, List.append_assoc, before.dropWhile_append,
    dropWhile_isBlank_of_head fun d hd => by cases hd; exact solid, List.append_assoc]

/-- What reading one value comes to, behind the white space at the beginning of the text. -/
theorem value_parse (text : String) :
    let lead := text.toList.takeWhile isBlank
    match (value : Parser [] Value).parse (limitsFor text) text true with
    | .accepted v rest =>
      ∃ u w, text.toList = lead ++ (u ++ (w ++ rest.toList)) ∧ Derives u v ∧ Blanks w
    | .rejected e =>
      e = ⟨.noAlternativeMatched, (Cause.noneOf kinds).message, byteLength lead, .after lead⟩
    | .fault | .unfinished => False := by
  intro lead
  have split : lead ++ text.toList.dropWhile isBlank = text.toList :=
    List.takeWhile_append_dropWhile
  have start : (State.start text).ahead? = some text.toList := dropBytes_zero text.toList
  let s := (State.start text).advance lead
  have ahead : s.ahead? = some (text.toList.dropWhile isBlank) := State.ahead?_behind_blanks start
  have cursor : s.cursor = byteLength lead := Nat.zero_add _
  -- The limits are enough for what is ahead, so the run comes to an end there.
  have within := (within_limitsFor text).suffix (List.dropWhile_suffix isBlank)
  have meets := readValue_reads (ρ := (.undefined : Environment [])) within s ahead
  change Run.Meets s _ ((value : Parser [] Value).rule.run (limitsFor text) .undefined s) at meets
  rw [Parser.parse_eq_verdict, Rule.afterBlanks_run _ start]
  change match ((value : Parser [] Value).rule.run (limitsFor text) .undefined s).verdict with
    | .accepted v rest => _
    | .rejected e => _
    | .fault | .unfinished => False
  cases alone : (value : Parser [] Value).rule.run (limitsFor text) .undefined s with
  | done v t =>
    rw [alone] at meets
    cases meets with
    | @done _ _ rest _ there reads =>
      obtain ⟨u, hu, padded⟩ := reads v rest rfl
      obtain ⟨u', w, behind, derives, blanks⟩ := padded.split hu
      rw [Run.verdict, there]
      refine ⟨u', w, ?_, derives, blanks⟩
      rw [String.toList_ofList, ← behind, split]
  | failed t =>
    rw [alone] at meets
    cases meets with
    | failed same =>
      have failure := failure_of_value alone
      rw [cursor] at failure
      rw [Run.verdict_of_failure (same.trans split.symm) failure]
      rfl
  | fault | unfinished =>
    rw [alone] at meets
    cases meets

/-! ## Whole texts -/

/-- What an error says that a text is rejected with. -/
inductive Rejects (text : String) (e : ParseError) : Prop
  /-- No value can be read behind the white space at the beginning. -/
  | noValue (alone : (value : Parser [] Value).parse (limitsFor text) text true = .rejected e)
      (kind : e.kind = .noAlternativeMatched)
      (reason : e.reason =
        "Expected one of a number, a string, a boolean, null, an object, an array, " ++
          "but none of them matched.")
      (position : e.position = byteLength (text.toList.takeWhile isBlank))
  /-- A value `u` was read, and behind it and the white space `w` the text goes on. -/
  | behindValue {u w cs : List Char} {v : Value} {c : Char} {rest : String}
      (alone : (value : Parser [] Value).parse (limitsFor text) text true = .accepted v rest)
      (split : text.toList = text.toList.takeWhile isBlank ++ (u ++ (w ++ c :: cs)))
      (derives : Derives u v) (blanks : Blanks w) (solid : isBlank c = false)
      (kind : e.kind = .expectedEnd)
      (reason : e.reason = "Expected EOF, but got '" ++ c.toString ++ "'.")
      (position : e.position = byteLength (text.toList.takeWhile isBlank ++ (u ++ w)))
      (further : byteLength (text.toList.takeWhile isBlank) < e.position)

/-- The first character that is left behind a value is no white space, and all between the two
is. -/
theorem exists_of_leftover {rest : List Char} {c : Char} {cs : List Char}
    (left : leftover true rest = c :: cs) :
    rest = rest.takeWhile isBlank ++ c :: cs ∧ isBlank c = false := by
  have left : rest.dropWhile isBlank = c :: cs := left
  refine ⟨?_, ?_⟩
  · rw [← left, List.takeWhile_append_dropWhile]
  · have head := List.head?_dropWhile_not isBlank rest
    rw [left] at head
    exact head

/-- What the choice says when it fails, put together from these labels. -/
theorem message_kinds : (Cause.noneOf kinds).message =
    "Expected one of a number, a string, a boolean, null, an object, an array, " ++
      "but none of them matched." := by
  decide

/-- Where the value alone is rejected, so is the text, with the same error. It names the kinds of
values. -/
theorem rejects_of_rejected {text : String} {e : ParseError}
    (alone : (value : Parser [] Value).parse (limitsFor text) text true = .rejected e) :
    parse text = .rejected e ∧ Rejects text e ∧
      Location.ofOffset? text.toList e.position = some e.location := by
  have read := value_parse text
  rw [alone] at read
  have lead : text.toList.takeWhile isBlank ++ text.toList.dropWhile isBlank = text.toList :=
    List.takeWhile_append_dropWhile
  have located := Location.ofOffset?_append (text.toList.takeWhile isBlank)
    (text.toList.dropWhile isBlank)
  rw [lead] at located
  subst read
  refine ⟨?_, .noValue alone rfl message_kinds rfl, located⟩
  refine (Parser.parseToEnd_of_not_accepted fun a rest accepted => ?_).trans alone
  cases alone.symm.trans accepted

/-- Where the value alone is accepted and something other than white space is left, the look at the
end rejects the text, behind the value. -/
theorem rejects_of_leftover {text rest : String} {v : Value} {c : Char} {cs : List Char}
    (alone : (value : Parser [] Value).parse (limitsFor text) text true = .accepted v rest)
    (left : leftover true rest.toList = c :: cs) :
    ∃ e, parse text = .rejected e ∧ Rejects text e ∧
      Location.ofOffset? text.toList e.position = some e.location := by
  have read := value_parse text
  rw [alone] at read
  obtain ⟨u, w, split, derives, blanks⟩ := read
  obtain ⟨behind, solid⟩ := exists_of_leftover left
  obtain ⟨front, htext, rejected⟩ := Parser.parseToEnd_of_leftover alone left
  rw [behind, ← List.append_assoc w] at split
  -- What stands before the error tells its place.
  have hfront : front = text.toList.takeWhile isBlank ++
      (u ++ (w ++ rest.toList.takeWhile isBlank)) := by
    refine List.append_cancel_right (?_ : front ++ c :: cs = _ ++ c :: cs)
    rw [← htext, List.append_assoc, List.append_assoc u, ← split]
  have located : Location.ofOffset? text.toList (byteLength front) = some (.after front) := by
    rw [htext]
    exact Location.ofOffset?_append front (c :: cs)
  have further : byteLength (text.toList.takeWhile isBlank) < byteLength front := by
    obtain ⟨d, ds, rfl, -⟩ := derives.exists_head
    have := d.utf8Size_pos
    rw [hfront, byteLength_append, byteLength_append, byteLength_cons]
    omega
  have position := congrArg byteLength hfront
  exact ⟨_, rejected, .behindValue alone split derives (blanks.append (blanks_takeWhile _)) solid
    rfl rfl position further, located⟩

/-- Reading a text comes to one of two ends, as the value is read alone first and that comes to
one of two. No run is broken off at an offset, and none reaches the limits. -/
theorem exists_verdict (text : String) :
    (∃ v, parse text = .accepted v "") ∨
      ∃ e, parse text = .rejected e ∧ Rejects text e ∧
        Location.ofOffset? text.toList e.position = some e.location := by
  have read := value_parse text
  cases alone : (value : Parser [] Value).parse (limitsFor text) text true with
  | accepted v rest =>
    cases left : leftover true rest.toList with
    | nil => exact .inl ⟨v, Parser.parseToEnd_of_accepted alone left⟩
    | cons c cs => exact .inr (rejects_of_leftover alone left)
  | rejected e => exact .inr ⟨e, rejects_of_rejected alone⟩
  | fault | unfinished =>
    rw [alone] at read
    exact read.elim

/-- **A text is rejected in two ways only.** Reading it ends with a value that leaves nothing, or
with an error that names the kinds of values at the place where one should begin, or with an error
that names what stands behind a value. The error has the line and the column of its position. -/
theorem parse_rejects (text : String) :
    match parse text with
    | .accepted _ rest => rest = ""
    | .rejected e =>
      Rejects text e ∧ Location.ofOffset? text.toList e.position = some e.location
    | .fault | .unfinished => False := by
  rcases exists_verdict text with ⟨v, accepted⟩ | ⟨e, rejected, rejects⟩
  · rw [accepted]
  · rw [rejected]
    exact rejects

/-- It is in the inner array that this text goes wrong, behind the comma. What is reported is the
place where the outer one begins. -/
example :
    (match parse " [[null, tru]]" with
      | .rejected e => some (e.kind, e.position, e.location)
      | _ => none) = some (.noAlternativeMatched, 1, ⟨1, 2⟩) := by
  decide +kernel

/-- Behind a value and a line break stands a character of two bytes. -/
example :
    (match parse "\"ż\"\nź " with
      | .rejected e => some (e.reason, e.position, e.location)
      | _ => none) = some ("Expected EOF, but got 'ź'.", 5, ⟨2, 1⟩) := by
  decide +kernel

end Json

end Descent
