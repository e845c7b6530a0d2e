/-
All JSON is read.

A text that derives a value is read as that value, where what follows it is the end, white
space, or a character that stands behind values (`EndsValue`). As closing punctuation takes
the white space behind it, some white space at the beginning of what follows may be taken
along (`Leaves`).

The alternatives for a value are told apart by the character that it begins with, so those
that are tried before the right one fail. This is also why a chain stops where it should: no
item begins with the character that closes its brackets, and no comma is one.
-/
import Descent.Proofs.Json.Soundness

set_option autoImplicit false

namespace Descent.Json

open Text

variable {Γ : Scope} {α : Type} {limits : Limits} {ρ : Environment Γ} {cs rest : List Char}

/-- A value may end before this. -/
def EndsValue (rest : List Char) : Prop :=
  ∀ c ∈ rest.head?, isBlank c = true ∨ c = ',' ∨ c = ']' ∨ c = '\x7d'

/-- With this value, and before the rest or behind white space at its beginning. -/
def Leaves (a : α) (rest : List Char) (o : Option (α × List Char)) : Prop :=
  ∃ w rest', o = some (a, rest') ∧ Blanks w ∧ rest = w ++ rest'

/-- A parser that takes no white space along leaves what follows as it is. -/
theorem leaves_self {a : α} : Leaves a rest (some (a, rest)) :=
  ⟨[], rest, rfl, .nil, rfl⟩

/-- One that takes all of it leaves the rest without the blanks at its beginning, as closing
punctuation does. -/
theorem leaves_dropWhile {a : α} : Leaves a rest (some (a, rest.dropWhile isBlank)) :=
  ⟨_, _, rfl, blanks_takeWhile rest, List.takeWhile_append_dropWhile.symm⟩

/-! ## Where tokens end -/

/-- Nothing that stands behind a value could go on with a number, so a number is read no further
than it is written. -/
theorem EndsValue.endsNumeral (h : EndsValue rest) : Token.EndsNumeral rest := by
  intro c hc
  rcases h c hc with hblank | rfl | rfl | rfl
  · refine ⟨isDecimalDigit_of_isBlank hblank, ?_, ?_, ?_⟩ <;> rintro rfl <;>
      exact absurd hblank (by decide)
  · decide
  · decide
  · decide

/-- Nor could it go on with a word. The pattern of `true` and `false` asks for the end of a word,
and finds it here. -/
theorem EndsValue.isWordChar (h : EndsValue rest) : ∀ c ∈ rest.head?, isWordChar c = false := by
  intro c hc
  rcases h c hc with hblank | rfl | rfl | rfl
  · exact isWordChar_of_isBlank hblank
  · decide
  · decide
  · decide

/-- White space may stand before it. So what follows an item ends values also where a space is
written before the comma. -/
theorem endsValue_append {w : List Char} (hw : Blanks w) (h : EndsValue rest) :
    EndsValue (w ++ rest) := by
  cases w with
  | nil => exact h
  | cons c w =>
    intro d hd
    cases hd
    exact .inl (hw c List.mem_cons_self)

/-- The three characters of punctuation that follow items, members and values inside brackets. -/
theorem endsValue_cons {c : Char} (hc : c = ',' ∨ c = ']' ∨ c = '\x7d') :
    EndsValue (c :: rest) := by
  intro d hd
  cases hd
  exact .inr hc

/-! ## Tokens are read -/

/-- A valid number is read to its end and as the value of its parts. The token reads the longest
numeral, and `EndsValue` says that the written one is the longest. -/
theorem decimal_complete {p : Numeral.Parts} (valid : p.Valid Char.isDigit)
    (finite : p.binary64.isFinite = true) (hrest : EndsValue rest) :
    (Token.decimal : Parser Γ Binary64).rule.Meets limits ρ (p.text ++ rest)
      (Leaves p.binary64 rest) := by
  have wide := valid.mono fun c => Numeral.isDecimalDigit_of_isDigit
  have value : Numeral.finite? p.text = some p.binary64 := by
    rw [Numeral.finite?, valid.binary64?_eq, Option.filter_some, if_pos finite]
  have found := Token.decimalPattern_find?_text wide hrest.endsNumeral
  refine Rule.Meets.bind_some (Rule.Meets.matchPattern rfl found rfl) ?_
  rw [String.toList_ofList, value]
  exact Rule.Meets.pure leaves_self

/-- A text in quotes is read as what is meant by it, whatever follows: the closing quote alone says
where it ends. -/
theorem doubleQuoted_complete {body meant : List Char} (h : Token.Writes '"' body meant) :
    (Token.doubleQuoted : Parser Γ String).rule.Meets limits ρ ('"' :: (body ++ '"' :: rest))
      (Leaves (String.ofList meant) rest) := by
  have found : Token.doubleQuotedPattern.find? ('"' :: (body ++ '"' :: rest)) =
      some ('"' :: (body ++ ['"'])) := by
    rw [Token.doubleQuotedPattern_find?_eq, Token.quoted_first_eq_some_iff (by decide)]
    exact ⟨body, meant, rest, h, rfl, rfl⟩
  have split : '"' :: (body ++ '"' :: rest) = '"' :: (body ++ ['"']) ++ rest := by simp
  refine Rule.Meets.bind_some (Rule.Meets.matchPattern split found rfl) (Rule.Meets.pure ?_)
  rw [String.toList_ofList, Token.inner_quoted, h.unescape_eq]
  exact leaves_self

/-- The two words are read as what they mean, provided that no longer word stands there. -/
theorem boolean_complete (b : Bool) (hrest : EndsValue rest) :
    (Token.boolean : Parser Γ Bool).rule.Meets limits ρ
      ((if b then "true".toList else "false".toList) ++ rest) (Leaves b rest) := by
  have found := Token.booleanPattern_find?_word b hrest.isWordChar
  refine Rule.Meets.bind_some (Rule.Meets.matchPattern rfl found rfl) (Rule.Meets.pure ?_)
  cases b <;> exact leaves_self

/-- Punctuation takes the white space on both sides of its symbol. This is why the parsers before
and behind it need not leave any particular amount of it. -/
theorem punctuation_complete {symbol : String} {c : Char} (hsymbol : symbol.toList = [c])
    (hcs : cs.dropWhile isBlank = c :: rest) :
    (punctuation symbol : Parser Γ Unit).rule.Meets limits ρ cs
      (· = some ((), rest.dropWhile isBlank)) := by
  have expected : cs.dropWhile isBlank = symbol.toList ++ rest := by
    rw [hcs, hsymbol]
    rfl
  refine Rule.Meets.bind_some (Rule.Meets.skipBlanks rfl) ?_
  refine Rule.Meets.bind_some (Rule.Meets.literal expected rfl) ?_
  exact Rule.Meets.bind_some (Rule.Meets.skipBlanks rfl) (Rule.Meets.pure rfl)

/-! ## Other alternatives fail -/

/-- A token whose pattern finds nothing fails, whatever it would make of a text. That another
alternative has its turn rests on this. -/
theorem token_fails {p : Pattern} {next : String → Rule Γ α}
    (h : ∀ found, p.find? cs ≠ some found) :
    (Rule.matchPattern p >>= next).Meets limits ρ cs (· = none) :=
  Rule.Meets.bind_none (Rule.Meets.matchPattern_none (Option.eq_none_iff_forall_ne_some.2 h) rfl)

/-- A number begins with a sign or with a digit, so where neither stands the token has nothing to
convert. -/
theorem decimal_fails (h : ∀ c ∈ cs.head?, ¬ Numeral.IsSign c ∧ isDecimalDigit c = false) :
    (Token.decimal : Parser Γ Binary64).rule.Meets limits ρ cs (· = none) := by
  refine token_fails fun found hfound => ?_
  obtain ⟨p, rest, hp, rfl, rfl⟩ := Token.exists_parts_of_find? hfound
  obtain ⟨c, ds, htext, hc⟩ := exists_head_text hp
  obtain ⟨hsign, hdigit⟩ := h c (by rw [htext]; rfl)
  rcases hc with hc | hc
  · exact hsign hc
  · rw [hdigit] at hc
    cases hc

/-- A text in quotes begins with its quote, as the pattern of the token does. -/
theorem doubleQuoted_fails (h : ∀ c ∈ cs.head?, c ≠ '"') :
    (Token.doubleQuoted : Parser Γ String).rule.Meets limits ρ cs (· = none) := by
  refine token_fails fun found hfound => ?_
  rw [Token.doubleQuotedPattern_find?_eq, Token.quoted_first_eq_some_iff (by decide)] at hfound
  obtain ⟨_, _, _, _, _, rfl⟩ := hfound
  exact h '"' rfl rfl

/-- Both words are told from all else by their first letter, so no other alternative is taken for a
truth value. -/
theorem boolean_fails (h : ∀ c ∈ cs.head?, c ≠ 't' ∧ c ≠ 'f') :
    (Token.boolean : Parser Γ Bool).rule.Meets limits ρ cs (· = none) := by
  refine token_fails fun found hfound => ?_
  obtain ⟨rfl | rfl, rest, rfl⟩ := Token.eq_of_booleanPattern_find? hfound
  · exact (h 't' rfl).1 rfl
  · exact (h 'f' rfl).2 rfl

/-- The same for the last of the words, which is read as a literal and not by a pattern. -/
theorem null_fails (h : ∀ c ∈ cs.head?, c ≠ 'n') :
    (Parser.literal "null" : Parser Γ String).rule.Meets limits ρ cs (· = none) := by
  refine Rule.Meets.literal_absent (fun rest heq => ?_) rfl
  rw [heq] at h
  exact h 'n' rfl rfl

/-- A symbol fails where another character stands behind the white space. It fails at the brackets
that close, and so a chain stops there. -/
theorem punctuation_fails {symbol : String} {c : Char} (hsymbol : symbol.toList = [c])
    (hcs : ∀ d ∈ (cs.dropWhile isBlank).head?, d ≠ c) :
    (punctuation symbol : Parser Γ Unit).rule.Meets limits ρ cs (· = none) := by
  refine Rule.Meets.bind_some (Rule.Meets.skipBlanks rfl) ?_
  refine Rule.Meets.bind_none (Rule.Meets.literal_absent (fun rest heq => ?_) rfl)
  rw [heq, hsymbol] at hcs
  exact hcs c rfl rfl

/-- A failure has no value to be mapped, so to fail is decided before the result is put to use. -/
theorem map_fails {β : Type} {r : Rule Γ β} {f : β → α} (h : r.Meets limits ρ cs (· = none)) :
    Rule.Meets limits ρ (f <$> r) cs (· = none) :=
  Rule.Meets.map (h.mono fun o ho => by rw [ho]; rfl)

/-- What is read is put into a value, and what is left stays the same: the step from tokens to
alternatives. -/
theorem map_leaves {β : Type} {r : Rule Γ β} {f : β → α} {b : β}
    (h : r.Meets limits ρ cs (Leaves b rest)) :
    Rule.Meets limits ρ (f <$> r) cs (Leaves (f b) rest) := by
  refine Rule.Meets.map (h.mono fun o ⟨w, rest', ho, hw, hrest⟩ => ?_)
  rw [ho]
  exact ⟨w, rest', rfl, hw, hrest⟩

/-- Two parsers in a row, where the first may have taken some white space that the second would have
taken. The second has to do with any amount of it. -/
theorem bind_leaves {β : Type} {r : Rule Γ β} {next : β → Rule Γ α} {b : β}
    {Q : Option (α × List Char) → Prop} (h : r.Meets limits ρ cs (Leaves b rest))
    (hnext : ∀ w rest', Blanks w → rest = w ++ rest' → (next b).Meets limits ρ rest' Q) :
    (r >>= next).Meets limits ρ cs Q := by
  refine Rule.Meets.bind h (fun ⟨_, _, heq, _⟩ => by cases heq)
    fun a rest' ⟨w, _, heq, hw, hrest⟩ => ?_
  cases heq
  exact hnext w rest' hw hrest

/-! ## Chains -/

/-- How an item is read: where it is written, and not where the brackets around it close. -/
structure ReadsItem (limits : Limits) (ρ : Environment Γ) (depth : Nat) (closing : Char)
    (P : List Char → α → Prop) (item : Rule Γ α) : Prop where
  head : ∀ {u : List Char} {a : α}, P u a → ∃ c ds, u = c :: ds ∧ isBlank c = false
  complete : ∀ {u : List Char} {a : α} {rest : List Char}, P u a → EndsValue rest →
    Within limits depth (u ++ rest) → item.Meets limits ρ (u ++ rest) (Leaves a rest)
  fails : ∀ {rest : List Char}, Within limits depth (closing :: rest) →
    item.Meets limits ρ (closing :: rest) (· = none)

/-- What stands behind the last item. -/
structure Closes (closing : Char) (cs : List Char) : Prop where
  ends : EndsValue cs
  head : ∃ rest, cs.dropWhile isBlank = closing :: rest

variable {depth : Nat} {closing : Char} {P : List Char → α → Prop} {item : Rule Γ α}
  {tail : List Char}

/-- What follows an item in a chain is a comma, if there are further items, and else what follows
the chain. Either way a value may end there. -/
theorem endsValue_row {links : List (Unit × α)}
    (h : Row (Chain.Link P (Symbol ',')) cs links) (htail : EndsValue tail) :
    EndsValue (cs ++ tail) := by
  cases h with
  | nil => exact htail
  | cons hlink =>
    obtain ⟨⟨hbefore, _⟩, _⟩ := hlink
    simp only [List.append_assoc, List.cons_append]
    exact endsValue_append hbefore (endsValue_cons (.inl rfl))

/-- No item begins with white space, so what punctuation takes before an item ends where the item
begins. -/
theorem dropWhile_item (hitem : ReadsItem limits ρ depth closing P item) {u : List Char} {a : α}
    (hu : P u a) (more : List Char) : (u ++ more).dropWhile isBlank = u ++ more := by
  obtain ⟨c, ds, rfl, hc⟩ := hitem.head hu
  refine dropWhile_isBlank_of_head fun d hd => ?_
  cases hd
  exact hc

/-- A link is read, with what white space before its comma was taken already. -/
theorem link_complete (hitem : ReadsItem limits ρ depth closing P item) {w u : List Char}
    {link : Unit × α} (hw : Blanks w) (hu : Chain.Link P (Symbol ',') u link)
    (hcs : u ++ rest = w ++ cs) (hrest : EndsValue rest)
    (within : Within limits depth (u ++ rest)) :
    (Rule.link item (punctuation ",").rule).Meets limits ρ cs (Leaves link rest) ∧
      rest.length < cs.length := by
  obtain @⟨_, v, _, t, @⟨before, after, hbefore, hafter⟩, ht⟩ := hu
  have whole : before ++ ',' :: after ++ v ++ rest = before ++ ',' :: (after ++ (v ++ rest)) := by
    simp
  rw [whole] at hcs within
  -- The comma is ahead, whatever of the white space before it is still there.
  have ahead : cs.dropWhile isBlank = ',' :: (after ++ (v ++ rest)) := by
    rw [← hw.dropWhile_append, ← hcs, hbefore.dropWhile_append]
    rfl
  have suffix : v ++ rest <:+ before ++ ',' :: (after ++ (v ++ rest)) :=
    ⟨before ++ ',' :: after, by simp⟩
  constructor
  · refine Rule.Meets.bind_some (punctuation_complete rfl ahead) ?_
    rw [hafter.dropWhile_append, dropWhile_item hitem ht]
    refine bind_leaves (hitem.complete ht hrest (within.suffix suffix))
      fun w' rest' hw' hrest' => ?_
    exact Rule.Meets.pure ⟨w', rest', rfl, hw', hrest'⟩
  · have shorter := (List.dropWhile_suffix isBlank (l := cs)).length_le
    simp only [ahead, List.length_append, List.length_cons] at shorter
    omega

/-- The links are read one after the other, until the brackets close. -/
theorem links_complete (hitem : ReadsItem limits ρ depth closing P item) (hclosing : closing ≠ ',')
    (htail : Closes closing tail) {written : List Char} {links : List (Unit × α)}
    (h : Row (Chain.Link P (Symbol ',')) written links) {w : List Char} (hw : Blanks w)
    (hcs : written ++ tail = w ++ cs) (within : Within limits depth (written ++ tail)) {n : Nat}
    (hn : cs.length < n) :
    (Behaviour.repeatedly ((Rule.link item (punctuation ",").rule).run limits ρ) n).Meets cs
      (Leaves links tail) := by
  -- On the links as they are written; each round leaves its white space to the next one.
  induction h generalizing w cs n with
  | nil =>
    obtain ⟨n, rfl⟩ : ∃ i, n = i + 1 := ⟨n - 1, by omega⟩
    obtain ⟨rest, hhead⟩ := htail.head
    have comma : (punctuation "," : Parser Γ Unit).rule.Meets limits ρ cs (· = none) := by
      refine punctuation_fails (c := ',') rfl fun d hd => ?_
      rw [← hw.dropWhile_append, ← hcs, List.nil_append, hhead] at hd
      cases hd
      exact hclosing
    refine Behaviour.Meets.repeatedly (Rule.Meets.bind_none comma) (fun _ => ?_)
      fun _ _ heq => by cases heq
    exact ⟨w, cs, rfl, hw, hcs⟩
  | @cons u more _ links hlink hmore ih =>
    obtain ⟨n, rfl⟩ : ∃ i, n = i + 1 := ⟨n - 1, by omega⟩
    rw [List.append_assoc] at hcs within
    obtain ⟨link, shorter⟩ :=
      link_complete hitem hw hlink hcs (endsValue_row hmore htail.ends) within
    refine Behaviour.Meets.repeatedly link (fun ⟨_, _, heq, _⟩ => by cases heq)
      fun a rest' ⟨w', _, heq, hw', hrest⟩ => ?_
    cases heq
    have fewer : rest'.length < n := by
      rw [hrest, List.length_append] at shorter
      omega
    have others := ih hw' hrest (within.suffix (List.suffix_append u _)) fewer
    refine others.mono fun o ⟨w'', rest'', ho, hw'', htail⟩ => ?_
    rw [ho]
    exact ⟨w'', rest'', rfl, hw'', htail⟩

/-- First the head, then the links until the brackets close. The head may take some white space that
stands before the first comma, which the links allow for. -/
theorem chain_complete (hitem : ReadsItem limits ρ depth closing P item) (hclosing : closing ≠ ',')
    (htail : Closes closing tail) {u written : List Char} {head : α} {links : List (Unit × α)}
    (hhead : P u head) (hlinks : Row (Chain.Link P (Symbol ',')) written links)
    (within : Within limits depth (u ++ (written ++ tail))) :
    (item.chain (punctuation ",").rule).Meets limits ρ (u ++ (written ++ tail))
      (Leaves (.links head links) tail) := by
  have first := hitem.complete hhead (endsValue_row hlinks htail.ends) within
  refine Rule.Meets.chain_links first (fun ⟨_, _, heq, _⟩ => by cases heq)
    fun a rest ⟨w, _, heq, hw, hrest⟩ => ?_
  cases heq
  have suffix : rest <:+ u ++ (written ++ tail) := by
    rw [hrest, ← List.append_assoc]
    exact List.suffix_append _ rest
  have inside := within.suffix (List.suffix_append u (written ++ tail))
  have others := links_complete hitem hclosing htail hlinks hw hrest inside
    (within.suffix suffix).rounds
  refine Behaviour.Meets.mono others fun o ⟨w', rest', ho, hw', htail⟩ => ?_
  exact ⟨links, rest', ho, w', rest', rfl, hw', htail⟩

/-! ## Brackets -/

/-- **Brackets are read** with what is in them, an empty chain as well: there the first item fails
on the bracket that closes. The reading of the inside is one level deeper. -/
theorem bracketed_complete (before after : String) {opening : Char}
    (hopening : opening = '[' ∨ opening = '\x7b') (hclosing : closing = ']' ∨ closing = '\x7d')
    (hbefore : before.toList = [opening]) (hafter : after.toList = [closing])
    (hitem : ReadsItem limits ρ depth closing P item) {items : Chain α Unit}
    (h : Bracketed opening closing P cs items) (within : Within limits (depth + 1) (cs ++ rest)) :
    (Rule.bracket (punctuation before).rule (punctuation after).rule
      (item.chain (punctuation ",").rule)).Meets limits ρ (cs ++ rest) (Leaves items rest) := by
  obtain @⟨w, cs, w', _, hw, hitems, hw'⟩ := h
  have blank : isBlank opening = false ∧ isBlank closing = false ∧ closing ≠ ',' := by
    rcases hopening with rfl | rfl <;> rcases hclosing with rfl | rfl <;> decide
  have whole : opening :: (w ++ (cs ++ (w' ++ [closing]))) ++ rest =
      opening :: (w ++ (cs ++ (w' ++ closing :: rest))) := by simp
  have opens : (opening :: (w ++ (cs ++ (w' ++ closing :: rest)))).dropWhile isBlank =
      opening :: (w ++ (cs ++ (w' ++ closing :: rest))) :=
    List.dropWhile_cons_of_neg (by simp [blank.1])
  have closes : (closing :: rest).dropWhile isBlank = closing :: rest :=
    List.dropWhile_cons_of_neg (by simp [blank.2.1])
  have tail : Closes closing (w' ++ closing :: rest) := by
    refine ⟨endsValue_append hw' (endsValue_cons (.inr hclosing)), rest, ?_⟩
    rw [hw'.dropWhile_append, closes]
  rw [whole] at within ⊢
  have inside : Within limits depth (cs ++ (w' ++ closing :: rest)) := by
    refine Within.inside hopening (.mk .nil hw) (u := opening :: w) ?_
    simpa using within
  -- What is left behind the opening bracket, once white space is taken, and how it is read.
  have chain : (item.chain (punctuation ",").rule).Meets limits ρ
      ((cs ++ (w' ++ closing :: rest)).dropWhile isBlank) fun o =>
        ∃ v, Leaves items (v ++ closing :: rest) o ∧ Blanks v := by
    cases hitems with
    | empty =>
      -- No item begins with the closing bracket, so the chain has no term.
      rw [List.nil_append, hw'.dropWhile_append, closes]
      have fails := hitem.fails (inside.suffix (List.suffix_append w' _))
      refine (Rule.Meets.chain_none fails).mono fun o ho => ⟨[], ?_, .nil⟩
      rw [ho]
      exact leaves_self
    | links hhead hlinks =>
      rw [List.append_assoc] at inside ⊢
      rw [dropWhile_item hitem hhead]
      exact (chain_complete hitem blank.2.2 tail hhead hlinks inside).mono fun o ho => ⟨w', ho, hw'⟩
  refine Rule.Meets.atomically (Rule.Meets.bind_some (punctuation_complete hbefore opens) ?_)
  rw [hw.dropWhile_append]
  refine Rule.Meets.bind chain (fun ⟨_, ⟨_, _, heq, _⟩, _⟩ => by cases heq)
    fun a rest' ⟨v, ⟨w'', _, heq, hw'', hrest⟩, hv⟩ => ?_
  cases heq
  -- However much white space the chain has left, the closing bracket is what comes next.
  have ahead : rest'.dropWhile isBlank = closing :: rest := by
    rw [← hw''.dropWhile_append, ← hrest, hv.dropWhile_append, closes]
  refine Rule.Meets.bind_some (punctuation_complete hafter ahead) (Rule.Meets.pure ?_)
  exact leaves_dropWhile

/-- The alternatives in brackets are told from the others by the opening bracket alone. -/
theorem bracketed_fails {before after : String} {opening : Char}
    (hbefore : before.toList = [opening]) (hcs : ∀ c ∈ cs.head?, isBlank c = false ∧ c ≠ opening) :
    (Rule.bracket (punctuation before).rule (punctuation after).rule
      (item.chain (punctuation ",").rule)).Meets limits ρ cs (· = none) := by
  refine Rule.Meets.atomically (Rule.Meets.bind_none (punctuation_fails hbefore fun c hc => ?_))
  rw [dropWhile_isBlank_of_head fun d hd => (hcs d hd).1] at hc
  exact (hcs c hc).2

/-! ## Values -/

/-- Key, colon and value, where the white space about the colon is taken by the colon. -/
theorem member_complete {value : Parser Γ Value} {m : String × Value}
    (hvalue : ReadsItem limits ρ depth ']' Derives value.rule) (h : Member Derives cs m)
    (hrest : EndsValue rest) (within : Within limits depth (cs ++ rest)) :
    (member value).rule.Meets limits ρ (cs ++ rest) (Leaves m rest) := by
  obtain @⟨key, meant, _, u, v, hkey, @⟨before, after, hbefore, hafter⟩, hv⟩ := h
  have whole : '"' :: (key ++ '"' :: (before ++ ':' :: after ++ u)) ++ rest =
      '"' :: (key ++ '"' :: (before ++ ':' :: (after ++ (u ++ rest)))) := by simp
  rw [whole] at within ⊢
  refine bind_leaves (doubleQuoted_complete hkey) fun w rest' hw hrest' => ?_
  have ahead : rest'.dropWhile isBlank = ':' :: (after ++ (u ++ rest)) := by
    rw [← hw.dropWhile_append, ← hrest', hbefore.dropWhile_append]
    rfl
  refine Rule.Meets.bind_some (punctuation_complete rfl ahead) ?_
  rw [hafter.dropWhile_append, dropWhile_item hvalue hv]
  have suffix : u ++ rest <:+ '"' :: (key ++ '"' :: (before ++ ':' :: (after ++ (u ++ rest)))) :=
    ⟨'"' :: (key ++ '"' :: (before ++ ':' :: after)), by simp⟩
  exact bind_leaves (hvalue.complete hv hrest (within.suffix suffix))
    fun w' rest'' hw' hrest'' => Rule.Meets.pure ⟨w', rest'', rfl, hw', hrest''⟩

/-- Members do in an object what values do in an array: they begin with no white space, and none
begins with a closing brace. -/
theorem readsItem_member {value : Parser Γ Value}
    (hvalue : ReadsItem limits ρ depth ']' Derives value.rule) :
    ReadsItem limits ρ depth '\x7d' (Member Derives) (member value).rule where
  head h := by
    cases h
    exact ⟨_, _, rfl, by decide⟩
  complete h hrest within := member_complete hvalue h hrest within
  fails _ := Rule.Meets.bind_none (doubleQuoted_fails (by simp))

/-- By cases on the value: the alternatives before the right one fail on its first character, and
the right one reads it. -/
theorem valueOf_complete {value : Parser Γ Value} {v : Value}
    (hvalue : ReadsItem limits ρ depth ']' Derives value.rule) (h : Derives cs v)
    (hrest : EndsValue rest) (within : Within limits (depth + 1) (cs ++ rest)) :
    (valueOf value).rule.Meets limits ρ (cs ++ rest) (Leaves v rest) := by
  have reads {cs : List Char} {r : Rule Γ Value} (h : r.Meets limits ρ cs (Leaves v rest)) :
      r.Meets limits ρ cs fun o => o ≠ none ∧ Leaves v rest o :=
    h.mono fun o ⟨w, rest', ho, hw⟩ => ⟨by simp [ho], w, rest', ho, hw⟩
  -- In each case, the alternatives before the right one, and that one.
  cases h with
  | number valid finite =>
    refine Rule.Meets.oneOfLabeled [] (by simp) (reads ?_)
    exact map_leaves (decimal_complete valid finite hrest)
  | @string body _ h =>
    have whole : '"' :: (body ++ ['"']) ++ rest = '"' :: (body ++ '"' :: rest) := by simp
    rw [whole]
    refine Rule.Meets.oneOfLabeled [_] ?_ (reads (map_leaves (doubleQuoted_complete h)))
    simp only [List.forall_mem_singleton]
    exact map_fails (decimal_fails fun c hc => by cases hc; decide)
  | bool b =>
    refine Rule.Meets.oneOfLabeled [_, _] ?_ (reads (map_leaves (boolean_complete b hrest)))
    simp only [List.forall_mem_cons, List.not_mem_nil, false_implies, implies_true, and_true]
    refine ⟨map_fails (decimal_fails ?_), map_fails (doubleQuoted_fails ?_)⟩
    · cases b <;> exact fun c hc => by cases hc; decide
    · cases b <;> exact fun c hc => by cases hc; decide
  | null =>
    have null : (Parser.literal "null" : Parser Γ String).rule.Meets limits ρ
        ("null".toList ++ rest) (Leaves "null" rest) := Rule.Meets.literal rfl leaves_self
    refine Rule.Meets.oneOfLabeled [_, _, _] ?_ (reads (map_leaves null))
    simp only [List.forall_mem_cons, List.not_mem_nil, false_implies, implies_true, and_true]
    refine ⟨map_fails (decimal_fails ?_), map_fails (doubleQuoted_fails ?_),
      map_fails (boolean_fails ?_)⟩
    all_goals exact fun c hc => by cases hc; decide
  | object h =>
    have members := bracketed_complete "\x7b" "\x7d" (.inr rfl) (.inr rfl) rfl rfl
      (readsItem_member hvalue) h within
    refine Rule.Meets.oneOfLabeled [_, _, _, _] ?_ (reads (map_leaves members))
    obtain ⟨_, _, _⟩ := h
    simp only [List.forall_mem_cons, List.not_mem_nil, false_implies, implies_true, and_true]
    refine ⟨map_fails (decimal_fails ?_), map_fails (doubleQuoted_fails ?_),
      map_fails (boolean_fails ?_), map_fails (null_fails ?_)⟩
    all_goals exact fun c hc => by cases hc; decide
  | array h =>
    have items := bracketed_complete "[" "]" (.inl rfl) (.inl rfl) rfl rfl hvalue h within
    refine Rule.Meets.oneOfLabeled [_, _, _, _, _] ?_ (reads (map_leaves items))
    obtain ⟨_, _, _⟩ := h
    simp only [List.forall_mem_cons, List.not_mem_nil, false_implies, implies_true, and_true]
    refine ⟨map_fails (decimal_fails ?_), map_fails (doubleQuoted_fails ?_),
      map_fails (boolean_fails ?_), map_fails (null_fails ?_), map_fails (bracketed_fails rfl ?_)⟩
    all_goals exact fun c hc => by cases hc; decide

/-- No alternative begins with the bracket that closes an array, and so an empty array has no first
item. -/
theorem valueOf_fails (value : Parser Γ Value) (rest : List Char) :
    (valueOf value).rule.Meets limits ρ (']' :: rest) (· = none) := by
  refine Rule.Meets.oneOfLabeled_none ?_
  simp only [List.map_cons, List.map_nil, List.forall_mem_cons, List.not_mem_nil, false_implies,
    implies_true, and_true]
  refine ⟨map_fails (decimal_fails ?_), map_fails (doubleQuoted_fails ?_),
    map_fails (boolean_fails ?_), map_fails (null_fails ?_), map_fails (bracketed_fails rfl ?_),
    map_fails (bracketed_fails rfl ?_)⟩
  all_goals exact fun c hc => by cases hc; decide

/-- **JSON is read** as the value that it derives. By induction on the depth, which what is inside
of brackets needs one less of. -/
theorem readValue_complete (limits : Limits) (ρ : Environment Γ) (depth : Nat) {v : Value}
    (h : Derives cs v) (hrest : EndsValue rest) (within : Within limits depth (cs ++ rest)) :
    (readValue limits ρ depth).Meets (cs ++ rest) (Leaves v rest) := by
  induction depth generalizing cs v rest with
  | zero => exact absurd within.depth (Nat.not_lt_zero _)
  | succ depth ih =>
    have standIn : ReadsItem limits (ρ.extend (some (readValue limits ρ depth))) depth ']' Derives
        (Parser.standIn .here : Parser (Value :: Γ) Value).rule := by
      refine ⟨Derives.exists_head, fun h hrest within => ?_, fun within => ?_⟩
      · exact Rule.Meets.reference rfl (ih h hrest within)
      · obtain ⟨depth, rfl⟩ := Nat.exists_eq_add_of_lt within.depth
        exact Rule.Meets.reference rfl (valueOf_fails _ _)
    exact valueOf_complete standIn h hrest within

end Descent.Json
