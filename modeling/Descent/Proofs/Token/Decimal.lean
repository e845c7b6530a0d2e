/-
What the decimal token reads.

The pattern of decimal numbers takes the digits of any script for digits. So what it finds
is a numeral in that wide sense (`exists_parts_of_find?`), which has a value only when it
is written in ASCII. A numeral is found whole where what follows adds nothing to any of its parts
(`decimalPattern_find?_of_stopsBefore`), so also where nothing follows that could belong to one
(`decimalPattern_find?_text`).
-/
import Descent.Proofs.Pattern.Spelling
import Descent.Proofs.Number.Parts
import Descent.Token

set_option autoImplicit false

namespace Descent

open Text Numeral

namespace Token

/-! ## The expression -/

/-- A sign, perhaps. -/
def signRegex : Regex :=
  .repeated 0 (some 1) true (.set (.union (.single '+') (.single '-')))

/-- Digits, without a zero before others. -/
def wholeRegex : Regex :=
  .alt (.set (.single '0')) (.seq (.set (.range '1' '9')) (.repeated 0 none true (.set .digit)))

/-- A fraction, perhaps. -/
def fractionRegex : Regex :=
  .repeated 0 (some 1) true
    (.seq (.set (.single '.')) (.repeated 1 none true (.set .digit)))

/-- A power of ten, perhaps. -/
def powerRegex : Regex :=
  .repeated 0 (some 1) true
    (.seq (.set (.union (.single 'e') (.single 'E')))
      (.seq signRegex (.repeated 1 none true (.set .digit))))

/-- The expression that is read from the source of the pattern. -/
def decimalRegex : Regex :=
  .seq signRegex (.seq wholeRegex (.seq fractionRegex powerRegex))

set_option maxRecDepth 4000 in
/-- The search by automata is replaced once and for all by the meaning of the expression. The source
is read and the automaton checked by evaluation here. -/
theorem decimalPattern_find?_eq (text : List Char) :
    decimalPattern.find? text = decimalRegex.first Match.accept none text :=
  Pattern.find?_ofSource _ (by decide) (by decide) (by decide) text

/-! ## What is found is a numeral -/

/-- What the optional sign can spell is nothing or one sign, in the form in which numerals keep it.
-/
theorem spells_sign {cs : List Char} (h : signRegex.Spells cs) :
    ∃ sign : Option Char, cs = sign.toList ∧ ∀ c ∈ sign, IsSign c := by
  rcases Regex.spells_optional.1 h with rfl | ⟨c, rfl, hc⟩
  · exact ⟨none, rfl, by simp⟩
  · refine ⟨some c, rfl, fun d hd => ?_⟩
    cases hd
    simpa [CharSet.mem, IsSign] using hc

/-- Either a zero alone or digits that begin with none. Behind the first digit those of any script
may follow. -/
theorem spells_whole {cs : List Char} (h : wholeRegex.Spells cs) :
    cs = ['0'] ∨
      ∃ c ds, cs = c :: ds ∧ ('1' ≤ c ∧ c ≤ '9') ∧ ∀ d ∈ ds, isDecimalDigit d = true := by
  rcases h with ⟨c, rfl, hc⟩ | ⟨_, ds, rfl, ⟨c, rfl, hc⟩, hds⟩
  · left
    simpa using hc
  · right
    refine ⟨c, ds, rfl, ?_, (Regex.spells_setRow.1 hds).2⟩
    simpa [CharSet.mem] using hc

/-- A fraction is left out or has digits, and an empty list of digits stands for the one left out.
-/
theorem spells_fraction {cs : List Char} (h : fractionRegex.Spells cs) :
    ∃ ds, (cs = if ds = [] then [] else '.' :: ds) ∧ ∀ d ∈ ds, isDecimalDigit d = true := by
  rcases Regex.spells_optional.1 h with rfl | ⟨_, ds, rfl, ⟨c, rfl, hc⟩, hds⟩
  · exact ⟨[], rfl, by simp⟩
  · obtain ⟨hlen, hds⟩ := Regex.spells_setRow.1 hds
    have nonempty : ds ≠ [] := List.length_pos_iff.1 hlen
    rw [CharSet.mem_single, beq_iff_eq] at hc
    refine ⟨ds, ?_, hds⟩
    rw [if_neg nonempty, hc]
    rfl

/-- A power that is there has its mark, a sign perhaps and digits, all of which numerals keep apart.
-/
theorem spells_mark {cs : List Char}
    (h : (Regex.seq (.set (.union (.single 'e') (.single 'E')))
      (.seq signRegex (.repeated 1 none true (.set .digit)))).Spells cs) :
    ∃ w : Power, cs = w.text ∧ w.Valid isDecimalDigit := by
  obtain ⟨_, _, rfl, ⟨c, rfl, hc⟩, _, ds, rfl, hsign, hds⟩ := h
  obtain ⟨sign, rfl, valid⟩ := spells_sign hsign
  obtain ⟨hlen, hds⟩ := Regex.spells_setRow.1 hds
  refine ⟨⟨c, sign, ds⟩, rfl, ?_, valid, List.length_pos_iff.1 hlen, hds⟩
  simpa [CharSet.mem] using hc

/-- And it may be left out, as the fraction may. -/
theorem spells_power {cs : List Char} (h : powerRegex.Spells cs) :
    ∃ power : Option Power, cs = (power.map Power.text).getD [] ∧
      ∀ w ∈ power, w.Valid isDecimalDigit := by
  rcases Regex.spells_optional.1 h with rfl | h
  · exact ⟨none, rfl, by simp⟩
  · obtain ⟨w, rfl, hw⟩ := spells_mark h
    refine ⟨some w, rfl, fun v hv => ?_⟩
    cases hv
    exact hw

/-- What is found is a numeral, in the digits of whatever script. -/
theorem exists_parts_of_find? {text found : List Char}
    (h : decimalPattern.find? text = some found) :
    ∃ (p : Parts) (rest : List Char), p.Valid isDecimalDigit ∧ found = p.text ∧
      text = found ++ rest := by
  rw [decimalPattern_find?_eq] at h
  obtain ⟨⟨_, _, rfl, hsign, whole, _, rfl, hwhole, _, _, rfl, hfraction, hpower⟩, rest, rfl⟩ :=
    Regex.spells_of_first h
  obtain ⟨sign, rfl, sign_valid⟩ := spells_sign hsign
  obtain ⟨fraction, rfl, fraction_valid⟩ := spells_fraction hfraction
  obtain ⟨power, rfl, power_valid⟩ := spells_power hpower
  refine ⟨⟨sign, whole, fraction, power⟩, rest,
    ⟨sign_valid, spells_whole hwhole, fraction_valid, power_valid⟩, ?_, rfl⟩
  simp [Parts.text, Parts.mantissa]

/-! ## Where numerals end -/

/-- Nothing that a numeral could go on with stands at the beginning. -/
def EndsNumeral (rest : List Char) : Prop :=
  ∀ c ∈ rest.head?, isDecimalDigit c = false ∧ c ≠ '.' ∧ c ≠ 'e' ∧ c ≠ 'E'

/-- No digit stands at the beginning. -/
def EndsDigits (rest : List Char) : Prop :=
  ∀ c ∈ rest.head?, isDecimalDigit c = false

/-- No fraction stands at the beginning: a point may, but not with a digit behind it. -/
def NoFraction (rest : List Char) : Prop :=
  ∀ ds more : List Char, ds ≠ [] → (∀ d ∈ ds, isDecimalDigit d = true) → rest ≠ '.' :: (ds ++ more)

/-- No power of ten stands at the beginning. -/
def NoPower (rest : List Char) : Prop :=
  ∀ (w : Power) (more : List Char), w.Valid isDecimalDigit → rest ≠ w.text ++ more

/-- One character that is no digit ends digits, whatever stands behind it. -/
theorem endsDigits_cons {c : Char} (hc : isDecimalDigit c = false) (cs : List Char) :
    EndsDigits (c :: cs) := by
  intro d hd
  cases hd
  exact hc

/-- A fraction begins with its point, so the first character that follows can rule it out. -/
theorem noFraction_of_head {rest : List Char} (h : ∀ c ∈ rest.head?, c ≠ '.') :
    NoFraction rest := by
  rintro ds more - - rfl
  exact h '.' rfl rfl

/-- A power begins with its mark, so here too the first character can do. -/
theorem noPower_of_head {rest : List Char} (h : ∀ c ∈ rest.head?, c ≠ 'e' ∧ c ≠ 'E') :
    NoPower rest := by
  rintro w more hw rfl
  have head := h w.mark rfl
  exact hw.mark.elim head.1 head.2

end Token

namespace Numeral.Parts

open Token

/-- The fraction as it is written. -/
def fractionText (p : Parts) : List Char :=
  if p.fraction = [] then [] else '.' :: p.fraction

/-- The power as it is written. -/
def powerText (p : Parts) : List Char :=
  (p.power.map Power.text).getD []

/-- Nothing of what follows can be added to any of the parts. -/
structure StopsBefore (p : Parts) (rest : List Char) : Prop where
  whole : p.whole ≠ ['0'] → EndsDigits (p.fractionText ++ (p.powerText ++ rest))
  noFraction : p.fraction = [] → NoFraction (p.powerText ++ rest)
  fraction : p.fraction ≠ [] → EndsDigits (p.powerText ++ rest)
  noPower : p.power = none → NoPower rest
  power : p.power ≠ none → EndsDigits rest

variable {p : Parts} {rest : List Char}

/-- Where a power is behind a part, its mark is. -/
theorem head?_powerText {w : Power} (hw : p.power = some w) :
    (p.powerText ++ rest).head? = some w.mark := by
  rw [powerText, hw]
  rfl

/-- What comes first there is the mark of the power, or the rest does where there is none. -/
theorem Valid.head_powerText (h : p.Valid isDecimalDigit) {c : Char}
    (hc : c ∈ (p.powerText ++ rest).head?) : c = 'e' ∨ c = 'E' ∨ c ∈ rest.head? := by
  cases hpower : p.power with
  | none =>
    rw [powerText, hpower] at hc
    exact .inr (.inr hc)
  | some w =>
    rw [head?_powerText hpower] at hc
    cases hc
    exact (h.power w hpower).mark.imp_right .inl

/-- Where nothing follows that a numeral could go on with, none of its parts goes on. -/
theorem Valid.stopsBefore (h : p.Valid isDecimalDigit) (hrest : EndsNumeral rest) :
    p.StopsBefore rest := by
  have power : ∀ c ∈ (p.powerText ++ rest).head?, isDecimalDigit c = false ∧ c ≠ '.' := by
    intro c hc
    rcases h.head_powerText hc with rfl | rfl | hc
    · decide
    · decide
    · exact ⟨(hrest c hc).1, (hrest c hc).2.1⟩
  have ends : EndsDigits (p.powerText ++ rest) := fun c hc => (power c hc).1
  refine ⟨fun _ => ?_, fun _ => noFraction_of_head fun c hc => (power c hc).2, fun _ => ends,
    fun _ => noPower_of_head fun c hc => (hrest c hc).2.2, fun _ c hc => (hrest c hc).1⟩
  rw [fractionText]
  split
  · exact ends
  · exact endsDigits_cons (by decide) _

end Numeral.Parts

namespace Token

/-! ## Numerals are found -/

variable {k : Match} {text found : List Char}

/-- The sign is taken if it is there. If it is not, none is taken by mistake, for what follows
begins with a digit. -/
theorem takes_sign {sign : Option Char} (hsign : ∀ c ∈ sign, IsSign c)
    (head : ∀ c ∈ text.head?, isDecimalDigit c = true) (hk : Match.Takes k text found) :
    Match.Takes (signRegex.first k) (sign.toList ++ text) (sign.toList ++ found) := by
  cases sign with
  | some c =>
    refine Match.Takes.into (Match.Takes.set ?_ hk)
    rcases hsign c rfl with rfl | rfl <;> decide
  | none =>
    refine Match.Takes.past (Match.Misses.set fun c hc => ?_) hk
    have plus := ne_of_isDecimalDigit (head c hc) (d := '+') (by decide)
    have minus := ne_of_isDecimalDigit (head c hc) (d := '-') (by decide)
    simp [CharSet.mem, plus, minus]

/-- All digits of a row are taken, and no fewer do as well: the repetition is greedy, and what
follows is taken behind the last of them. -/
theorem takes_digits {ds : List Char} (hne : ds ≠ []) (hds : ∀ d ∈ ds, isDecimalDigit d = true)
    (hrest : ∀ c ∈ text.head?, isDecimalDigit c = false) (hk : Match.Takes k text found) :
    Match.Takes ((Regex.repeated 1 none true (.set .digit)).first k) (ds ++ text)
      (ds ++ found) := by
  obtain ⟨c, ds, rfl⟩ := List.exists_cons_of_ne_nil hne
  exact Match.Takes.setPlus hds hrest hk

/-- A zero is taken alone even where digits follow it, but other digits are taken to their end. So
only for these is anything asked of the text behind. -/
theorem takes_whole {whole : List Char}
    (h : whole = ['0'] ∨ ∃ c ds, whole = c :: ds ∧ ('1' ≤ c ∧ c ≤ '9') ∧
      ∀ d ∈ ds, isDecimalDigit d = true)
    (ends : whole ≠ ['0'] → EndsDigits text) (hk : Match.Takes k text found) :
    Match.Takes (wholeRegex.first k) (whole ++ text) (whole ++ found) := by
  rcases h with rfl | ⟨c, ds, rfl, hc, hds⟩
  · exact Match.Takes.left (Match.Takes.set (by decide) hk)
  · have nonzero : c ≠ '0' := by
      rintro rfl
      exact absurd hc.1 (by decide)
    refine Match.Takes.right (Match.Misses.set fun d hd => ?_) ?_
    · cases hd
      simpa using nonzero
    · refine Match.Takes.set ?_ (Match.Takes.setStar hds (ends ?_) hk)
      · simpa [CharSet.mem] using hc
      · exact fun heq => nonzero (List.head_eq_of_cons_eq heq)

/-- A fraction that is written is taken to the end of its digits. One that is not written has to be
impossible, for a point with digits behind it would be taken. -/
theorem takes_fraction {ds : List Char} (hds : ∀ d ∈ ds, isDecimalDigit d = true)
    (absent : ds = [] → NoFraction text) (ends : ds ≠ [] → EndsDigits text)
    (hk : Match.Takes k text found) :
    Match.Takes (fractionRegex.first k) ((if ds = [] then [] else '.' :: ds) ++ text)
      ((if ds = [] then [] else '.' :: ds) ++ found) := by
  by_cases hne : ds = []
  · rw [if_pos hne]
    refine Match.Takes.past (Match.Misses.of_spells fun front rest htext spells => ?_) hk
    obtain ⟨_, more, rfl, ⟨c, rfl, hc⟩, hmore⟩ := spells
    obtain ⟨hlen, hmore⟩ := Regex.spells_setRow.1 hmore
    rw [CharSet.mem_single, beq_iff_eq] at hc
    refine absent hne more rest (List.length_pos_iff.1 hlen) hmore ?_
    rw [List.nil_append, hc] at htext
    exact htext
  · rw [if_neg hne]
    exact Match.Takes.into (Match.Takes.set (by decide) (takes_digits hne hds (ends hne) hk))

/-- The same of a power, which is the last part, so what follows the numeral decides. -/
theorem takes_power {power : Option Power} (hpower : ∀ w ∈ power, w.Valid isDecimalDigit)
    (absent : power = none → NoPower text) (ends : power ≠ none → EndsDigits text)
    (hk : Match.Takes k text found) :
    Match.Takes (powerRegex.first k) ((power.map Power.text).getD [] ++ text)
      ((power.map Power.text).getD [] ++ found) := by
  cases power with
  | none =>
    refine Match.Takes.past (Match.Misses.of_spells fun front rest htext spells => ?_) hk
    obtain ⟨w, rfl, hw⟩ := spells_mark spells
    exact absent rfl w rest hw htext
  | some w =>
    -- The sign of the power is followed by a digit, so no sign is taken where there is none.
    have hw := hpower w rfl
    have head : ∀ c ∈ (w.digits ++ text).head?, isDecimalDigit c = true :=
      fun c hc => hw.digits c (mem_of_mem_head?_append hw.nonempty hc)
    have digits := takes_digits hw.nonempty hw.digits (ends (by simp)) hk
    have mark : CharSet.mem (.union (.single 'e') (.single 'E')) w.mark = true := by
      rcases hw.mark with h | h <;> simp [CharSet.mem, h]
    have all := Match.Takes.set mark (takes_sign hw.sign head digits)
    rw [Option.map_some, Option.getD_some, Power.text, List.cons_append, List.append_assoc,
      List.cons_append, List.append_assoc]
    exact Match.Takes.into all

/-- A numeral is found whole, where nothing of what follows can be added to any of its parts. -/
theorem decimalPattern_find?_of_stopsBefore {p : Parts} (h : p.Valid isDecimalDigit)
    {rest : List Char} (stops : p.StopsBefore rest) :
    decimalPattern.find? (p.text ++ rest) = some p.text := by
  have ended : Match.Takes Match.accept rest [] := Match.Takes.accept
  -- From the back: each part is read where what follows it cannot belong to it.
  have power := takes_power h.power stops.noPower stops.power ended
  have fraction := takes_fraction h.fraction stops.noFraction stops.fraction power
  have whole := takes_whole h.whole stops.whole fraction
  have head : ∀ c ∈ (p.whole ++ (p.fractionText ++ (p.powerText ++ rest))).head?,
      isDecimalDigit c = true :=
    fun c hc => h.isDecimalDigit_whole c (mem_of_mem_head?_append h.whole_ne_nil hc)
  have all := takes_sign h.sign head whole none
  rw [decimalPattern_find?_eq]
  simpa [Parts.text, Parts.mantissa, Parts.fractionText, Parts.powerText, decimalRegex,
    Regex.first] using all

/-- So it is found whole, where nothing follows that it could go on with. -/
theorem decimalPattern_find?_text {p : Parts} (h : p.Valid isDecimalDigit) {rest : List Char}
    (hrest : EndsNumeral rest) : decimalPattern.find? (p.text ++ rest) = some p.text :=
  decimalPattern_find?_of_stopsBefore h (h.stopsBefore hrest)

end Token

end Descent
