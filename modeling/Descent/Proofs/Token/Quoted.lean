/-
What the quoted tokens read.

A quoted text is written with a quote on either side. Between them a backslash and a
character after it stand for one character, and every other character stands for itself
(`Writes`). The pattern of quoted texts finds exactly these (`quoted_first_eq_some_iff`),
and replacing the escapes afterwards gives what was written (`Writes.unescape_eq`). So the
two passes that reading a quoted text is made of are one.
-/
import Descent.Proofs.Pattern.Spelling
import Descent.Token

set_option autoImplicit false

namespace Descent.Token

/-! ## How a text is written between quotes -/

/-- What a character behind a backslash stands for, if it may stand there. -/
def escape? (quote : Char) : Char → Option Char
  | '\\' => some '\\'
  | 'n' => some '\n'
  | 'r' => some '\r'
  | 't' => some '\t'
  | 'b' => some '\x08'
  | c => if c = quote then some quote else none

/-- Between quotes, the characters write the text. -/
inductive Writes (quote : Char) : List Char → List Char → Prop
  | nil : Writes quote [] []
  | plain {c : Char} {cs ds : List Char} (hquote : c ≠ quote) (hbackslash : c ≠ '\\')
      (h : Writes quote cs ds) : Writes quote (c :: cs) (c :: ds)
  | escape {c d : Char} {cs ds : List Char} (hc : escape? quote c = some d)
      (h : Writes quote cs ds) : Writes quote ('\\' :: c :: cs) (d :: ds)

variable {quote : Char} {cs ds : List Char}

/-- What an escape may be and what it stands for are told by two functions. On the escapes that may
be, they agree. -/
theorem escaped_eq {c d : Char} (h : escape? quote c = some d) : escaped c = d := by
  unfold escape? at h
  split at h
  case h_6 _ hb hn hr ht hbs =>
    split at h
    · next heq =>
      cases h
      unfold escaped
      split
      · exact absurd rfl hn
      · exact absurd rfl hr
      · exact absurd rfl ht
      · exact absurd rfl hbs
      · exact heq
    · cases h
  all_goals cases h; rfl

/-- A character other than the backslash is passed over, the last one of a text as well. -/
theorem unescape_cons {c : Char} (h : c ≠ '\\') (cs : List Char) :
    unescape (c :: cs) = c :: unescape cs := by
  rw [unescape]
  · exact fun hc _ => h hc
  · exact fun _ _ hc _ => h hc

/-- Replacing the escapes gives the text that was written. By induction on how it was written, since
each escape takes two characters. -/
theorem Writes.unescape_eq (h : Writes quote cs ds) : unescape cs = ds := by
  induction h with
  | nil => rfl
  | plain _ hbackslash _ ih => rw [unescape_cons hbackslash, ih]
  | escape hc _ ih => rw [unescape, escaped_eq hc, ih]

/-- A text may be written in parts, since an escape is never divided between two of them. -/
theorem Writes.append {cs' ds' : List Char} (h : Writes quote cs ds) (h' : Writes quote cs' ds') :
    Writes quote (cs ++ cs') (ds ++ ds') := by
  induction h with
  | nil => exact h'
  | plain hquote hbackslash _ ih => exact .plain hquote hbackslash ih
  | escape hc _ ih => exact .escape hc ih

/-! ## The expression -/

/-- A character that stands for itself. -/
def plainSet (quote : Char) : CharSet :=
  .compl (.union (.single '\\') (.single quote))

/-- A character that stands behind a backslash. -/
def escapeSet (quote : Char) : CharSet :=
  .union (.union (.union (.union (.union (.single quote) (.single 'n')) (.single 'r'))
    (.single 't')) (.single 'b')) (.single '\\')

/-- Characters that stand for themselves. -/
def plainRegex (quote : Char) : Regex :=
  .repeated 0 none true (.set (plainSet quote))

/-- An escape, and what follows it up to the next one. -/
def escapeRegex (quote : Char) : Regex :=
  .seq (.set (.single '\\')) (.seq (.set (escapeSet quote)) (plainRegex quote))

/-- The expression that is read from the source of the pattern. -/
def quotedRegex (quote : Char) : Regex :=
  .seq (.set (.single quote)) (.seq (plainRegex quote)
    (.seq (.repeated 0 none true (escapeRegex quote)) (.set (.single quote))))

set_option maxRecDepth 4000 in
/-- The source of the pattern is read once, by evaluation, and from here on there is only the
meaning of the expression. -/
theorem doubleQuotedPattern_find?_eq (text : List Char) :
    doubleQuotedPattern.find? text = (quotedRegex '"').first Match.accept none text :=
  Pattern.find?_ofSource _ (by decide) (by decide) (by decide) text

set_option maxRecDepth 4000 in
/-- Likewise for the other quote. All that follows is about both. -/
theorem singleQuotedPattern_find?_eq (text : List Char) :
    singleQuotedPattern.find? text = (quotedRegex '\'').first Match.accept none text :=
  Pattern.find?_ofSource _ (by decide) (by decide) (by decide) text

/-- Plain characters are those that neither end the text nor begin an escape. -/
theorem mem_plainSet {c : Char} : (plainSet quote).mem c = true ↔ c ≠ quote ∧ c ≠ '\\' := by
  simp [plainSet, CharSet.mem, and_comm]

/-- The set of the expression and the function that gives escapes their meaning allow the same
characters. -/
theorem mem_escapeSet {c : Char} :
    (escapeSet quote).mem c = true ↔ ∃ d, escape? quote c = some d := by
  unfold escape?
  split <;> simp_all [escapeSet, CharSet.mem]

/-! ## What is found is a quoted text -/

/-- Plain characters write themselves, one by one. Between two escapes a text consists of them. -/
theorem writes_plain (h : ∀ c ∈ cs, (plainSet quote).mem c = true) : Writes quote cs cs := by
  induction cs with
  | nil => exact .nil
  | cons c cs ih =>
    obtain ⟨hquote, hbackslash⟩ := mem_plainSet.1 (h c List.mem_cons_self)
    exact .plain hquote hbackslash (ih fun d hd => h d (List.mem_cons_of_mem c hd))

/-- Between the quotes, the characters that the expression reads write some text. -/
theorem exists_writes_of_spells (h : (quotedRegex quote).Spells cs) :
    ∃ body ds, cs = quote :: (body ++ [quote]) ∧ Writes quote body ds := by
  obtain ⟨_, _, rfl, ⟨c, rfl, hc⟩, plain, _, rfl, hplain, _, _, rfl, ⟨parts, rfl, -, hparts⟩,
    d, rfl, hd⟩ := h
  rw [CharSet.mem_single, beq_iff_eq] at hc hd
  -- Each part is an escape and what stands for itself behind it.
  have escapes : ∃ ds, Writes quote parts.flatten ds := by
    induction parts with
    | nil => exact ⟨[], .nil⟩
    | cons p parts ih =>
      obtain ⟨ds, hds⟩ := ih fun q hq => hparts q (List.mem_cons_of_mem p hq)
      obtain ⟨_, _, rfl, ⟨b, rfl, hb⟩, _, more, rfl, ⟨e, rfl, he⟩, hmore⟩ :=
        hparts p List.mem_cons_self
      rw [CharSet.mem_single, beq_iff_eq] at hb
      subst hb
      obtain ⟨d, hd⟩ := mem_escapeSet.1 he
      have plain := writes_plain (Regex.spells_setRow.1 hmore).2
      rw [List.flatten_cons]
      exact ⟨_, .escape hd (plain.append hds)⟩
  obtain ⟨ds, hds⟩ := escapes
  refine ⟨plain ++ parts.flatten, plain ++ ds, by simp [hc, hd], ?_⟩
  exact (writes_plain (Regex.spells_setRow.1 hplain).2).append hds

/-! ## Quoted texts are found -/

/-- A text as it is written: what stands for itself, and then escapes, each with what stands for
itself behind it. -/
theorem Writes.exists_parts (h : Writes quote cs ds) :
    ∃ (plain : List Char) (parts : List (List Char)), cs = plain ++ parts.flatten ∧
      (∀ c ∈ plain, (plainSet quote).mem c = true) ∧
        ∀ p ∈ parts, ∃ e more, p = '\\' :: e :: more ∧ (escapeSet quote).mem e = true ∧
          ∀ c ∈ more, (plainSet quote).mem c = true := by
  induction h with
  | nil => exact ⟨[], [], rfl, by simp, by simp⟩
  | plain hquote hbackslash _ ih =>
    obtain ⟨plain, parts, rfl, hplain, hparts⟩ := ih
    refine ⟨_ :: plain, parts, rfl, List.forall_mem_cons.2 ⟨?_, hplain⟩, hparts⟩
    exact mem_plainSet.2 ⟨hquote, hbackslash⟩
  | escape hc _ ih =>
    obtain ⟨plain, parts, rfl, hplain, hparts⟩ := ih
    refine ⟨[], ('\\' :: _ :: plain) :: parts, rfl, by simp, List.forall_mem_cons.2 ⟨?_, hparts⟩⟩
    exact ⟨_, plain, rfl, mem_escapeSet.2 ⟨_, hc⟩, hplain⟩

/-- A quoted text is found whole, for no part of it could end later: its plain runs stop at a
backslash or at the quote, and its escapes stop at the quote. -/
theorem takes_quoted (hquote : quote ≠ '\\') (h : Writes quote cs ds) (rest : List Char) :
    Match.Takes ((quotedRegex quote).first Match.accept) (quote :: (cs ++ quote :: rest))
      (quote :: (cs ++ [quote])) := by
  obtain ⟨plain, parts, rfl, hplain, hparts⟩ := h.exists_parts
  have self : (CharSet.single quote).mem quote = true := by simp
  have close : Match.Takes ((Regex.set (.single quote)).first Match.accept) (quote :: rest)
      [quote] := Match.Takes.set self Match.Takes.accept
  -- Neither a quote nor a backslash belongs to what stands for itself.
  let Ends (later : List Char) : Prop := ∀ c ∈ later.head?, (plainSet quote).mem c = false
  have ends {c : Char} (hc : c = quote ∨ c = '\\') (later : List Char) : Ends (c :: later) := by
    intro d hd
    cases hd
    rcases hc with rfl | rfl <;> simp [plainSet, CharSet.mem]
  have reads : Match.Reads 1 (escapeRegex quote).first :=
    (Regex.reads_set _).seq (Regex.reads_first (.inl rfl))
  have escapes := Match.Takes.star reads parts Ends (ends (.inl rfl) rest)
    (fun p hp later hlater => ?_) (fun x => Match.Misses.set fun c hc => ?_) close
  · have endsPlain : Ends (parts.flatten ++ quote :: rest) := by
      cases parts with
      | nil => exact ends (.inl rfl) rest
      | cons p parts =>
        obtain ⟨e, more, rfl, -⟩ := hparts p List.mem_cons_self
        exact ends (.inr rfl) _
    have all := Match.Takes.set self (Match.Takes.setStar hplain endsPlain escapes)
    rw [List.append_assoc, List.append_assoc]
    exact all
  · obtain ⟨e, more, rfl, he, hmore⟩ := hparts p hp
    refine ⟨ends (.inr rfl) _, fun x v hx => ?_⟩
    exact Match.Takes.set (by simp) (Match.Takes.set he (Match.Takes.setStar hmore hlater hx))
  · cases hc
    simpa using hquote

/-- **What is found is what is written between quotes**, up to the quote that ends it. -/
theorem quoted_first_eq_some_iff (hquote : quote ≠ '\\') {text found : List Char} :
    (quotedRegex quote).first Match.accept none text = some found ↔
      ∃ body ds rest, Writes quote body ds ∧ found = quote :: (body ++ [quote]) ∧
        text = quote :: (body ++ quote :: rest) := by
  constructor
  · intro h
    obtain ⟨hspells, rest, rfl⟩ := Regex.spells_of_first h
    obtain ⟨body, ds, rfl, hds⟩ := exists_writes_of_spells hspells
    exact ⟨body, ds, rest, hds, rfl, by simp⟩
  · rintro ⟨body, ds, rest, hds, rfl, rfl⟩
    exact takes_quoted hquote hds rest none

/-- To take off the first and the last character leaves what is between the quotes. -/
theorem inner_quoted (quote : Char) (body : List Char) :
    inner (quote :: (body ++ [quote])) = body := by
  rw [inner, List.tail_cons, List.dropLast_concat]

end Descent.Token
