/-
The decimal token takes the longest numeral.

A search with an order of preference need not find the longest of what it could find. The
pattern of decimal numbers does (`decimalPattern_find?_iff`). That is so because a numeral which
could be longer could be longer by one step: by a digit at one of its ends, by a fraction or by
a power. So the longest one stops before its rest, and such a numeral is found.

What a step needs is there or is not there as a whole. A point without a digit behind it or a
mark without a power is left, as are digits behind a leading zero (`Leftover`).
-/
import Descent.Proofs.Reading
import Descent.Proofs.Token.Decimal
import Mathlib.Data.Nat.Find

set_option autoImplicit false

namespace Descent

open Text Numeral

/-! ## Longest prefixes -/

/-- The text `found` is the longest that `cs` begins with and that has the property. -/
structure LongestPrefix (P : List Char → Prop) (cs found : List Char) : Prop where
  begins : found <+: cs
  holds : P found
  longest : ∀ other, other <+: cs → P other → other.length ≤ found.length

namespace LongestPrefix

variable {P Q : List Char → Prop} {cs found : List Char}

/-- There is a longest one where there is any, for no front part is longer than the text. -/
theorem exists_of_holds (begins : found <+: cs) (holds : P found) :
    ∃ found, LongestPrefix P cs found := by
  classical
  have taken : cs.take found.length = found := (List.prefix_iff_eq_take.1 begins).symm
  let n := Nat.findGreatest (fun n => P (cs.take n)) cs.length
  have le : n ≤ cs.length := Nat.findGreatest_le _
  refine ⟨cs.take n, List.take_prefix n cs, ?_, fun other hbegins hholds => ?_⟩
  · refine Nat.findGreatest_spec (P := fun n => P (cs.take n)) begins.length_le ?_
    rwa [taken]
  · rw [List.length_take, Nat.min_eq_left le]
    refine Nat.le_findGreatest hbegins.length_le ?_
    rwa [(List.prefix_iff_eq_take.1 hbegins).symm]

/-- Nothing can be added to the longest one that would keep the property. This is how its maximality
is used, step by step. -/
theorem eq_nil_of_append {rest more back : List Char} (h : LongestPrefix P (found ++ rest) found)
    (hrest : rest = more ++ back) (holds : P (found ++ more)) : more = [] := by
  have begins : found ++ more <+: found ++ rest := ⟨back, by rw [hrest, List.append_assoc]⟩
  have longest := h.longest _ begins holds
  rw [List.length_append] at longest
  exact List.length_eq_zero_iff.1 (by omega)

/-- Properties that agree on what the text begins with have the same longest prefix. -/
theorem congr (h : ∀ found, found <+: cs → (P found ↔ Q found)) :
    LongestPrefix P cs found ↔ LongestPrefix Q cs found := by
  constructor
  · intro ⟨begins, holds, longest⟩
    exact ⟨begins, (h found begins).1 holds,
      fun other hb hQ => longest other hb ((h other hb).2 hQ)⟩
  · intro ⟨begins, holds, longest⟩
    exact ⟨begins, (h found begins).2 holds,
      fun other hb hP => longest other hb ((h other hb).1 hP)⟩

end LongestPrefix

/-- The text is a decimal numeral in such digits. -/
def IsDecimal (isDigit : Char → Bool) (cs : List Char) : Prop :=
  ∃ p : Parts, p.Valid isDigit ∧ p.text = cs

/-! ## The longest numeral stops -/

namespace Numeral.Parts

open Token

variable {p : Parts} {rest : List Char}

/-- One more digit of the whole part, where it is not a lone zero and nothing is behind it. -/
theorem Valid.whole_append (h : p.Valid isDecimalDigit) (nonzero : p.whole ≠ ['0'])
    (hfraction : p.fraction = []) (hpower : p.power = none) {c : Char}
    (hc : isDecimalDigit c = true) : IsDecimal isDecimalDigit (p.text ++ [c]) := by
  obtain ⟨d, ds, hwhole, hd, hds⟩ := h.whole.resolve_left nonzero
  refine ⟨{ p with whole := p.whole ++ [c] },
    ⟨h.sign, .inr ⟨d, ds ++ [c], by rw [hwhole]; rfl, hd, ?_⟩, h.fraction, h.power⟩, ?_⟩
  · exact List.forall_mem_append.2 ⟨hds, List.forall_mem_singleton.2 hc⟩
  · simp [text_eq, hfraction, hpower]

/-- A longer fraction, where no power is behind it. Where there is none yet, a point comes first. -/
theorem Valid.fraction_append (h : p.Valid isDecimalDigit) (hpower : p.power = none)
    {ds : List Char} (nonempty : ds ≠ []) (hds : ∀ d ∈ ds, isDecimalDigit d = true) :
    IsDecimal isDecimalDigit (p.text ++ ((if p.fraction = [] then ['.'] else []) ++ ds)) := by
  refine ⟨{ p with fraction := p.fraction ++ ds },
    ⟨h.sign, h.whole, List.forall_mem_append.2 ⟨h.fraction, hds⟩, h.power⟩, ?_⟩
  by_cases hfraction : p.fraction = [] <;> simp [text_eq, hfraction, hpower, nonempty]

/-- A power, where there is none, is added as a whole: its mark alone makes no numeral. -/
theorem Valid.power_append (h : p.Valid isDecimalDigit) (hpower : p.power = none) {w : Power}
    (hw : w.Valid isDecimalDigit) : IsDecimal isDecimalDigit (p.text ++ w.text) := by
  refine ⟨{ p with power := some w }, ⟨h.sign, h.whole, h.fraction, fun v hv => ?_⟩, ?_⟩
  · cases hv
    exact hw
  · simp [text_eq, hpower]

/-- One more digit of the power, the last part of a numeral, so the digit is behind all of it. -/
theorem Valid.exponent_append (h : p.Valid isDecimalDigit) (hpower : p.power ≠ none) {c : Char}
    (hc : isDecimalDigit c = true) : IsDecimal isDecimalDigit (p.text ++ [c]) := by
  obtain ⟨w, hw⟩ := Option.ne_none_iff_exists'.1 hpower
  have valid := h.power w hw
  refine ⟨{ p with power := some { w with digits := w.digits ++ [c] } },
    ⟨h.sign, h.whole, h.fraction, fun v hv => ?_⟩, ?_⟩
  · cases hv
    refine ⟨valid.mark, valid.sign, by simp, ?_⟩
    exact List.forall_mem_append.2 ⟨valid.digits, List.forall_mem_singleton.2 hc⟩
  · simp [text_eq, hw, Power.text]

/-- No digit is behind a numeral that a digit would make longer. -/
theorem endsDigits_of_longest
    (longest : LongestPrefix (IsDecimal isDecimalDigit) (p.text ++ rest) p.text)
    (step : ∀ c, isDecimalDigit c = true → IsDecimal isDecimalDigit (p.text ++ [c])) :
    EndsDigits rest := by
  intro c hc
  obtain ⟨back, hback⟩ := List.head?_eq_some_iff.1 hc
  refine Bool.eq_false_iff.2 fun digit => ?_
  exact List.cons_ne_nil c [] (longest.eq_nil_of_append hback (step c digit))

/-- So no digit is behind one of its parts, where it would become longer if this was the last. -/
theorem Valid.endsDigits_powerText (h : p.Valid isDecimalDigit)
    (longest : LongestPrefix (IsDecimal isDecimalDigit) (p.text ++ rest) p.text)
    (step : p.power = none → ∀ c, isDecimalDigit c = true →
      IsDecimal isDecimalDigit (p.text ++ [c])) : EndsDigits (p.powerText ++ rest) := by
  cases hpower : p.power with
  | none =>
    rw [powerText, hpower]
    exact endsDigits_of_longest longest (step hpower)
  | some w =>
    intro c hc
    rw [head?_powerText hpower] at hc
    cases hc
    rcases (h.power w hpower).mark with hmark | hmark <;> rw [hmark] <;> decide

/-- Each step that is missing for it to stop would make it longer. -/
theorem Valid.stopsBefore_of_longest (h : p.Valid isDecimalDigit)
    (longest : LongestPrefix (IsDecimal isDecimalDigit) (p.text ++ rest) p.text) :
    p.StopsBefore rest where
  whole nonzero := by
    rw [fractionText]
    split
    · next hfraction =>
      exact h.endsDigits_powerText longest fun hpower c hc =>
        h.whole_append nonzero hfraction hpower hc
    · exact endsDigits_cons (by decide) _
  noFraction hfraction := by
    cases hpower : p.power with
    | none =>
      intro ds more nonempty hds heq
      have longer := h.fraction_append hpower nonempty hds
      rw [if_pos hfraction] at longer
      rw [powerText, hpower] at heq
      exact List.cons_ne_nil '.' ds (longest.eq_nil_of_append heq longer)
    | some w =>
      refine noFraction_of_head fun c hc => ?_
      rw [head?_powerText hpower] at hc
      cases hc
      rcases (h.power w hpower).mark with hmark | hmark <;> rw [hmark] <;> decide
  fraction hfraction := by
    refine h.endsDigits_powerText longest fun hpower c hc => ?_
    have longer := h.fraction_append hpower (List.cons_ne_nil c []) (List.forall_mem_singleton.2 hc)
    rwa [if_neg hfraction] at longer
  noPower hpower := by
    intro w more hw heq
    exact List.cons_ne_nil _ _ (longest.eq_nil_of_append heq (h.power_append hpower hw))
  power hpower := endsDigits_of_longest longest fun _ => h.exponent_append hpower

end Numeral.Parts

/-! ## The pattern finds the longest numeral -/

namespace Token

variable {Γ : Scope} {limits : Limits} {ρ : Environment Γ} {s : State} {cs found : List Char}

/-- The longest numeral stops before its rest, and such a numeral is what a search finds. -/
theorem decimalPattern_find?_of_longest
    (h : LongestPrefix (IsDecimal isDecimalDigit) cs found) :
    decimalPattern.find? cs = some found := by
  obtain ⟨p, valid, rfl⟩ := h.holds
  obtain ⟨rest, rfl⟩ := h.begins
  exact decimalPattern_find?_of_stopsBefore valid (valid.stopsBefore_of_longest h)

/-- **What is found is the longest numeral** that the text begins with, in the digits of any
script. -/
theorem decimalPattern_find?_iff :
    decimalPattern.find? cs = some found ↔ LongestPrefix (IsDecimal isDecimalDigit) cs found := by
  refine ⟨fun hfind => ?_, decimalPattern_find?_of_longest⟩
  obtain ⟨p, rest, valid, rfl, hcs⟩ := exists_parts_of_find? hfind
  -- There is a longest one, and that is found as well.
  obtain ⟨other, longest⟩ := LongestPrefix.exists_of_holds (P := IsDecimal isDecimalDigit)
    ⟨rest, hcs.symm⟩ ⟨p, valid, rfl⟩
  have same := (decimalPattern_find?_of_longest longest).symm.trans hfind
  rwa [Option.some.inj same] at longest

/-- Where the text begins with a numeral, there is a longest one, and it is found. So to find
nothing means that there is none. -/
theorem decimalPattern_find?_eq_none_iff :
    decimalPattern.find? cs = none ↔ ∀ found, found <+: cs → ¬ IsDecimal isDecimalDigit found := by
  constructor
  · intro hfind found begins holds
    obtain ⟨other, longest⟩ := LongestPrefix.exists_of_holds begins holds
    rw [decimalPattern_find?_of_longest longest] at hfind
    cases hfind
  · intro none
    refine Option.eq_none_iff_forall_ne_some.2 fun found hfind => ?_
    have longest := decimalPattern_find?_iff.1 hfind
    exact none found longest.begins longest.holds

/-- A numeral is the longest just where nothing of what follows can be added to its parts. -/
theorem longest_iff_stopsBefore {p : Parts} (h : p.Valid isDecimalDigit) {rest : List Char} :
    LongestPrefix (IsDecimal isDecimalDigit) (p.text ++ rest) p.text ↔ p.StopsBefore rest :=
  ⟨h.stopsBefore_of_longest, fun stops =>
    decimalPattern_find?_iff.1 (decimalPattern_find?_of_stopsBefore h stops)⟩

/-! ## Numerals in ASCII -/

/-- All digits that occur are ASCII. -/
def AsciiDigits (cs : List Char) : Prop :=
  ∀ c ∈ cs, isDecimalDigit c = true → c.isDigit = true

instance : DecidablePred AsciiDigits :=
  List.decidableBAll fun c => isDecimalDigit c = true → c.isDigit = true

/-- In such a text a numeral has no other digits than those of ASCII, and is one of ASCII. -/
theorem AsciiDigits.isDecimal_iff (h : AsciiDigits cs) (begins : found <+: cs) :
    IsDecimal isDecimalDigit found ↔ IsDecimal Char.isDigit found := by
  constructor
  · rintro ⟨p, valid, rfl⟩
    exact ⟨p, valid.of_text fun c hc => h c (begins.subset hc), rfl⟩
  · rintro ⟨p, valid, rfl⟩
    exact ⟨p, valid.mono fun c => isDecimalDigit_of_isDigit, rfl⟩

/-- So the longest numeral in the digits of any script is the longest in those of ASCII, which has a
value. -/
theorem AsciiDigits.longest_iff (h : AsciiDigits cs) :
    LongestPrefix (IsDecimal isDecimalDigit) cs found ↔
      LongestPrefix (IsDecimal Char.isDigit) cs found :=
  LongestPrefix.congr fun _ begins => h.isDecimal_iff begins

/-! ## What is left -/

/-- Behind the numeral stands the beginning of a further part, but not the whole of one: a point
without a digit, a mark without a digit, or a digit behind a lone zero. -/
inductive Leftover (p : Parts) : List Char → Prop where
  | point {rest : List Char} (noFraction : p.fraction = []) (noPower : p.power = none)
      (ends : EndsDigits rest) : Leftover p ('.' :: rest)
  | mark {mark : Char} {rest : List Char} (noPower : p.power = none)
      (isMark : mark = 'e' ∨ mark = 'E') (ends : EndsDigits rest)
      (unsigned : ∀ c ∈ rest.head?, ¬ IsSign c) : Leftover p (mark :: rest)
  | signedMark {mark sign : Char} {rest : List Char} (noPower : p.power = none)
      (isMark : mark = 'e' ∨ mark = 'E') (isSign : IsSign sign) (ends : EndsDigits rest) :
      Leftover p (mark :: sign :: rest)
  | digit {c : Char} {rest : List Char} (zero : p.whole = ['0']) (noFraction : p.fraction = [])
      (noPower : p.power = none) (isDigit : isDecimalDigit c = true) : Leftover p (c :: rest)

/-- Behind a mark a digit or a sign has to come. Where neither does, there is no power. -/
theorem noPower_cons {mark : Char} {rest : List Char} (ends : EndsDigits rest)
    (unsigned : ∀ c ∈ rest.head?, ¬ IsSign c) : NoPower (mark :: rest) := by
  rintro ⟨_, sign, ds⟩ more hw heq
  obtain ⟨d, ds, rfl⟩ := List.exists_cons_of_ne_nil hw.nonempty
  have behind : rest = sign.toList ++ d :: ds ++ more := List.tail_eq_of_cons_eq heq
  cases sign with
  | none =>
    have digit : isDecimalDigit d = true := hw.digits d List.mem_cons_self
    exact Bool.eq_false_iff.1 (ends d (by simp [behind])) digit
  | some c => exact unsigned c (by simp [behind]) (hw.sign c rfl)

/-- Behind a mark and a sign digits would have to come, and a second sign is none. -/
theorem noPower_cons_cons {mark sign : Char} {rest : List Char} (isSign : IsSign sign)
    (ends : EndsDigits rest) : NoPower (mark :: sign :: rest) := by
  rintro ⟨_, sign', ds⟩ more hw heq
  obtain ⟨d, ds, rfl⟩ := List.exists_cons_of_ne_nil hw.nonempty
  have digit : isDecimalDigit d = true := hw.digits d List.mem_cons_self
  have behind : sign :: rest = sign'.toList ++ d :: ds ++ more := List.tail_eq_of_cons_eq heq
  cases sign' with
  | none =>
    have same : sign = d := List.head_eq_of_cons_eq behind
    rw [← same] at digit
    rcases isSign with rfl | rfl <;> exact absurd digit (by decide)
  | some c =>
    have behind : rest = d :: ds ++ more := List.tail_eq_of_cons_eq behind
    exact Bool.eq_false_iff.1 (ends d (by simp [behind])) digit

/-- A point is no fraction yet if no digit stands behind it. -/
theorem noFraction_point {rest : List Char} (ends : EndsDigits rest) :
    NoFraction ('.' :: rest) := by
  rintro ds more nonempty hds heq
  obtain ⟨d, ds, rfl⟩ := List.exists_cons_of_ne_nil nonempty
  have behind : rest = d :: ds ++ more := List.tail_eq_of_cons_eq heq
  exact Bool.eq_false_iff.1 (ends d (by simp [behind])) (hds d List.mem_cons_self)

/-- A numeral without a power stops where digits, a fraction and a power would have to begin. -/
theorem stopsBefore_of_noPower {p : Parts} {rest : List Char} (hpower : p.power = none)
    (ends : p.whole ≠ ['0'] ∨ p.fraction ≠ [] → EndsDigits rest)
    (noFraction : p.fraction = [] → NoFraction rest) (noPower : NoPower rest) :
    p.StopsBefore rest := by
  have powerText : p.powerText ++ rest = rest := by
    rw [Parts.powerText, hpower]
    rfl
  refine ⟨fun nonzero => ?_, fun hfraction => ?_, fun hfraction => ?_, fun _ => noPower,
    fun h => absurd hpower h⟩
  · rw [powerText, Parts.fractionText]
    split
    · exact ends (.inl nonzero)
    · exact endsDigits_cons (by decide) _
  · rw [powerText]
    exact noFraction hfraction
  · rw [powerText]
    exact ends (.inr hfraction)

/-- Such a beginning adds nothing to the numeral, one case for each form of it. So the numeral
before it is the longest. -/
theorem Leftover.stopsBefore {p : Parts} {rest : List Char} (h : Leftover p rest) :
    p.StopsBefore rest := by
  have marks {mark : Char} (isMark : mark = 'e' ∨ mark = 'E') :
      isDecimalDigit mark = false ∧ mark ≠ '.' := by
    rcases isMark with rfl | rfl <;> decide
  cases h with
  | point noFraction noPower ends =>
    exact stopsBefore_of_noPower noPower (fun _ => endsDigits_cons (by decide) _)
      (fun _ => noFraction_point ends) (noPower_of_head (by simp))
  | mark noPower isMark ends unsigned =>
    exact stopsBefore_of_noPower noPower (fun _ => endsDigits_cons (marks isMark).1 _)
      (fun _ => noFraction_of_head (by simpa using (marks isMark).2)) (noPower_cons ends unsigned)
  | signedMark noPower isMark isSign ends =>
    exact stopsBefore_of_noPower noPower (fun _ => endsDigits_cons (marks isMark).1 _)
      (fun _ => noFraction_of_head (by simpa using (marks isMark).2))
      (noPower_cons_cons isSign ends)
  | @digit c rest zero noFraction noPower isDigit =>
    have point : c ≠ '.' := ne_of_isDecimalDigit isDigit (by decide)
    have marks : c ≠ 'e' ∧ c ≠ 'E' :=
      ⟨ne_of_isDecimalDigit isDigit (by decide), ne_of_isDecimalDigit isDigit (by decide)⟩
    refine stopsBefore_of_noPower noPower (fun h => ?_)
      (fun _ => noFraction_of_head (by simpa using point)) (noPower_of_head (by simpa using marks))
    exact absurd h (by simp [zero, noFraction])

/-! ## What is read -/

/-- The token is its pattern, and then the value of what that found, if it is finite. -/
theorem decimal_run (limits : Limits) (ρ : Environment Γ) (s : State) :
    decimal.rule.run limits ρ s = (State.matchPattern decimalPattern s).andThen fun numeral t =>
      match finite? numeral.toList with
      | some x => .done x t
      | none => State.fail (.decimalRange numeral) t := by
  show Run.andThen _ _ = _
  congr 1
  funext numeral t
  dsimp only
  cases finite? numeral.toList <;> rfl

/-- Where a numeral is found, it has been consumed by the time its value is looked at. So it is
refused from behind. -/
theorem decimal_run_of_find? (ahead : s.ahead? = some cs)
    (h : decimalPattern.find? cs = some found) :
    decimal.rule.run limits ρ s =
      match finite? found with
      | some x => .done x (s.advance found)
      | none => .failed ((s.advance found).record (.decimalRange (String.ofList found))) := by
  rw [decimal_run, State.matchPattern_of_find? ahead h, Run.andThen, String.toList_ofList]
  rfl

/-- **The decimal token takes the longest numeral and nothing more.** In a text whose digits are
ASCII, the longest numeral that it begins with is consumed. Its value is read if it is finite, and
otherwise the numeral is refused from behind. If the text begins with no numeral, nothing is
consumed. So the beginning of a further part, without the whole of it, is left. -/
theorem decimal_run_longest (limits : Limits) (ρ : Environment Γ) {s : State} {cs : List Char}
    (ahead : s.ahead? = some cs) (ascii : AsciiDigits cs) :
    (∀ p : Parts, p.Valid Char.isDigit → LongestPrefix (IsDecimal Char.isDigit) cs p.text →
      binary64? p.text = some p.binary64 ∧
      (p.binary64.isFinite = true →
        decimal.rule.run limits ρ s = .done p.binary64 (s.advance p.text)) ∧
      (p.binary64.isFinite = false → decimal.rule.run limits ρ s =
        .failed { s.advance p.text with failure := {
          kind := .refused
          reason := "Expected a decimal number, but '" ++ String.ofList p.text ++
            "' is outside its representable range."
          position := (s.advance p.text).cursor } })) ∧
    ((∃ found, found <+: cs ∧ IsDecimal Char.isDigit found) →
      ∃ p : Parts, p.Valid Char.isDigit ∧ LongestPrefix (IsDecimal Char.isDigit) cs p.text) ∧
    ((∀ found, found <+: cs → ¬ IsDecimal Char.isDigit found) →
      decimal.rule.run limits ρ s = .failed { s with failure := {
        kind := .patternMismatch
        reason := "Expected pattern '[+\\-]?(?:0|[1-9]\\d*)(?:\\.\\d+)?(?:[eE][+\\-]?\\d+)?', " ++
          "but there was no match."
        position := s.cursor } }) ∧
    ∀ (p : Parts) (rest : List Char), p.Valid Char.isDigit → cs = p.text ++ rest →
      Leftover p rest → LongestPrefix (IsDecimal Char.isDigit) cs p.text ∧
        (s.advance p.text).ahead? = some rest := by
  refine ⟨fun p valid longest => ?_, fun ⟨found, begins, holds⟩ => ?_, fun none => ?_,
    fun p rest valid text leftover => ?_⟩
  · have found := decimalPattern_find?_iff.2 (ascii.longest_iff.2 longest)
    have value := valid.binary64?_eq
    have run : decimal.rule.run limits ρ s = _ := decimal_run_of_find? ahead found
    refine ⟨value, fun finite => ?_, fun infinite => ?_⟩
    · rwa [finite?, value, Option.filter_some_pos finite] at run
    · rwa [finite?, value, Option.filter_some_neg (by simp [infinite])] at run
  · obtain ⟨longest, h⟩ := LongestPrefix.exists_of_holds begins holds
    obtain ⟨p, valid, rfl⟩ := h.holds
    exact ⟨p, valid, h⟩
  · have nothing : decimalPattern.find? cs = .none :=
      decimalPattern_find?_eq_none_iff.2 fun found begins =>
        (ascii.isDecimal_iff begins).not.2 (none found begins)
    rw [decimal_run, State.matchPattern_of_find?_none ahead nothing]
    rfl
  · subst text
    have decimal := valid.mono fun c => isDecimalDigit_of_isDigit
    exact ⟨ascii.longest_iff.1 ((longest_iff_stopsBefore decimal).2 leftover.stopsBefore),
      State.ahead?_advance ahead⟩

/-- A mark and a sign without a power are left behind the number, which stands behind a character
of two bytes. -/
theorem decimal_run_longest_mark :
    let s : State := { text := "ż-10.5e+x".toList, cursor := 2 }
    let p : Parts := { sign := some '-', whole := "10".toList, fraction := "5".toList }
    s.ahead? = some "-10.5e+x".toList ∧ AsciiDigits "-10.5e+x".toList ∧
      (decimal : Parser [] Binary64).rule.run ⟨0, 0⟩ .undefined s =
        .done p.binary64 (s.advance "-10.5".toList) ∧
      (s.advance "-10.5".toList).ahead? = some "e+x".toList := by
  intro s p
  have ahead : s.ahead? = some "-10.5e+x".toList := by decide
  have ascii : AsciiDigits "-10.5e+x".toList := by decide
  have valid : p.Valid Char.isDigit :=
    ⟨fun c hc => by cases hc; decide, .inr ⟨'1', ['0'], rfl, by decide, by simp⟩, by simp [p],
      by simp [p]⟩
  have leftover : Leftover p "e+x".toList :=
    .signedMark rfl (.inl rfl) (.inl rfl) (endsDigits_cons (by decide) _)
  have reads := decimal_run_longest ⟨0, 0⟩ (.undefined : Environment []) ahead ascii
  obtain ⟨longest, left⟩ := reads.2.2.2 p _ valid rfl leftover
  have finite : p.binary64.isFinite = true := by decide +kernel
  exact ⟨ahead, ascii, (reads.1 p valid longest).2.1 finite, left⟩

end Token

end Descent
