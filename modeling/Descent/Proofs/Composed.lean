/-
Parsers put together from the parsers of this library.

A parser is *composed* when it is one of the elementary parsers or tokens, a JSON value,
or made of composed parsers by the combinators (`Parser.Composed`). What a rule written by
hand can do besides, move about the text by offsets and keep places, no composed parser
does: its rule is plain (`Parser.Composed.isPlain`), and so it is local and blind.
-/
import Descent.Proofs.Confinement
import Descent.Json.Grammar

set_option autoImplicit false

namespace Descent

variable {Γ : Scope} {α β τ σ : Type}

/-! ## Plain rules -/

/-- Reads what lies ahead, and has to do neither with offsets nor with the slot or with
bookmarks. -/
def Operation.isPlain {α : Type} : Operation α → Bool
  | .peek | .char | .literal _ | .matchPattern _ | .ending | .skipBlanks | .rest => true
  | _ => false

/-- The rule uses no other operations, and copies no state. -/
def Rule.Plain (r : Rule Γ α) : Prop :=
  r.Within Operation.isPlain false

/-! ## Combinators keep rules confined -/

namespace Rule.Within

variable {may : Permission} {held : Bool}

/-- A rule that gets by with fewer operations gets by with more. So that a composed parser is plain
says all at once what it is otherwise confined to. -/
theorem mono {may' : Permission}
    (hmay : ∀ {α : Type} (o : Operation α), may o = true → may' o = true)
    {r : Rule Γ α} (h : r.Within may held) : r.Within may' held := by
  induction r generalizing held with
  | pure | fail | reference => trivial
  | bind r next ihr ihnext => exact ⟨ihr h.1, fun a => ihnext a (h.2 a)⟩
  | operation o => exact hmay o h
  | attempt r ih | rewind r ih | atomically r ih | rephrase reason r ih | many r ih
  | enclosed r ih | recursive body ih | outlived r ih => exact ih h
  | handle r next rescue ihr ihnext ihrescue =>
    exact ⟨ihr h.1, fun a => ihnext a (h.2.1 a), ihrescue h.2.2⟩
  | raise => exact h
  | iterate step b ih => exact fun b => ih b (h b)
  | speculate r ih => exact h.elim

/-- A mapped result needs no operation beyond those of the rule itself. -/
theorem map {r : Rule Γ α} (h : r.Within may held) (f : α → β) :
    Rule.Within may held (f <$> r) :=
  ⟨h, fun _ => trivial⟩

/-- A choice of two is an attempt of the one and, if that gave no value, the other. Neither looks at
the failure, so none is held for it. -/
theorem orElse {r s : Rule Γ α} (hr : r.Within may held) (hs : s.Within may held) :
    (r.orElse s).Within may held := by
  refine ⟨hr, fun a => ?_⟩
  cases a with
  | some a => trivial
  | none => exact hs

/-- By induction on the list: each alternative is tried before the choice between the others. -/
theorem oneOf {rs : List (Rule Γ α)} (h : ∀ r ∈ rs, r.Within may held) :
    (Rule.oneOf rs).Within may held := by
  induction rs with
  | nil => trivial
  | cons r rs ih =>
    have hr := h r List.mem_cons_self
    have hrs := ih fun s hs => h s (List.mem_cons_of_mem r hs)
    cases rs with
    | nil => exact hr
    | cons s rs => exact hr.orElse hrs

/-- The same with labels. These come in only with the failure behind the last alternative, which
needs no operation. -/
theorem oneOfLabeled {alternatives : List (String × Rule Γ α)}
    (h : ∀ a ∈ alternatives, a.2.Within may held) :
    (Rule.oneOfLabeled alternatives).Within may held := by
  have fold : ∀ as : List (String × Rule Γ α), (∀ a ∈ as, a.2.Within may held) →
      ∀ last : Rule Γ α, last.Within may held →
        (as.foldr (fun a others => Rule.orElse a.2 others) last).Within may held := by
    intro as has last hlast
    induction as with
    | nil => exact hlast
    | cons a as ih =>
      exact (has a List.mem_cons_self).orElse (ih fun b hb => has b (List.mem_cons_of_mem a hb))
  exact fold alternatives h _ trivial

/-- A filter looks at the value that was read, and fails where it is not accepted. -/
theorem filter {r : Rule Γ α} (h : r.Within may held) (accepts : α → Bool) (reason : String) :
    (r.filter accepts reason).Within may held := by
  refine ⟨h, fun a => ?_⟩
  dsimp only
  split <;> trivial

/-- Any number of times, and a failure without looking where that was none. -/
theorem many1 {r : Rule Γ α} (h : r.Within may held) : r.many1.Within may held := by
  refine ⟨h, fun items => ?_⟩
  dsimp only
  split <;> trivial

/-- The three parts in a row, with what was read inside kept. -/
theorem bracket {before : Rule Γ β} {after : Rule Γ σ} {inside : Rule Γ α}
    (hbefore : before.Within may held) (hafter : after.Within may held)
    (hinside : inside.Within may held) : (Rule.bracket before after inside).Within may held :=
  ⟨hbefore, fun _ => ⟨hinside, fun _ => ⟨hafter, fun _ => trivial⟩⟩⟩

variable {term : Rule Γ τ} {separator : Rule Γ σ}

/-- A chain attempts its first term and repeats its links, each a separator and a term. Whether
there was a first term is told by a value. -/
theorem chain1 (hterm : term.Within may held) (hseparator : separator.Within may held) :
    (Rule.chain1 term separator).Within may held := by
  refine ⟨hterm, fun head => ?_⟩
  cases head with
  | none => trivial
  | some head =>
    exact ⟨⟨hseparator, fun _ => ⟨hterm, fun _ => trivial⟩⟩, fun _ => trivial⟩

/-- The chain that may be empty tries the one that may not, and takes the empty one by default. -/
theorem chain (hterm : term.Within may held) (hseparator : separator.Within may held) :
    (Rule.chain term separator).Within may held :=
  ⟨hterm.chain1 hseparator, fun _ => trivial⟩

/-- A fold reads what the chain reads, and combining is done on the values. -/
theorem chainLeft (hterm : term.Within may held) (hseparator : separator.Within may held)
    (combine : τ → τ → σ → τ) : (Rule.chainLeft term separator combine).Within may held := by
  refine ⟨hterm.chain hseparator, fun c => ?_⟩
  dsimp only
  split <;> trivial

/-- The same from the other side, as the combining takes place when all has been read. -/
theorem chainRight (hterm : term.Within may held) (hseparator : separator.Within may held)
    (combine : τ → τ → σ → τ) : (Rule.chainRight term separator combine).Within may held := by
  refine ⟨hterm.chain hseparator, fun c => ?_⟩
  dsimp only
  split <;> trivial

end Rule.Within

/-! ## Composed parsers -/

namespace Parser

/-- The parser is put together from those of this library, with no rule written by hand. -/
inductive Composed : {Γ : Scope} → {α : Type} → Parser Γ α → Prop
  | anyChar {Γ : Scope} : Composed (anyChar : Parser Γ Char)
  | char {Γ : Scope} (expected : Char) : Composed (char expected : Parser Γ Char)
  | charIn {Γ : Scope} (expected : List Char) : Composed (charIn expected : Parser Γ Char)
  | literal {Γ : Scope} (expected : String) : Composed (literal expected : Parser Γ String)
  | pattern {Γ : Scope} (p : Pattern) : Composed (pattern p : Parser Γ String)
  | ending {Γ : Scope} : Composed (ending : Parser Γ Unit)
  | peek {Γ : Scope} : Composed (peek : Parser Γ Char)
  | rest {Γ : Scope} : Composed (rest : Parser Γ String)
  | ret {Γ : Scope} {α : Type} (a : α) : Composed (ret a : Parser Γ α)
  | fail {Γ : Scope} {α : Type} (reason : String) : Composed (fail reason : Parser Γ α)
  | blanks {Γ : Scope} : Composed (Token.blanks : Parser Γ String)
  | blanks1 {Γ : Scope} : Composed (Token.blanks1 : Parser Γ String)
  | integer {Γ : Scope} : Composed (Token.integer : Parser Γ Int64)
  | decimal {Γ : Scope} : Composed (Token.decimal : Parser Γ Binary64)
  | boolean {Γ : Scope} : Composed (Token.boolean : Parser Γ Bool)
  | doubleQuoted {Γ : Scope} : Composed (Token.doubleQuoted : Parser Γ String)
  | singleQuoted {Γ : Scope} : Composed (Token.singleQuoted : Parser Γ String)
  | json {Γ : Scope} : Composed (Json.value : Parser Γ Json.Value)
  | map {Γ : Scope} {α β : Type} {p : Parser Γ α} (f : α → β) (h : Composed p) :
      Composed (p.map f)
  | pair {Γ : Scope} {α β : Type} {p : Parser Γ α} {q : Parser Γ β} (hp : Composed p)
      (hq : Composed q) : Composed (p.pair q)
  | andThen {Γ : Scope} {α β : Type} {p : Parser Γ α} {next : α → Parser Γ β} (hp : Composed p)
      (hnext : ∀ a, Composed (next a)) : Composed (p.andThen next)
  | filter {Γ : Scope} {α : Type} {p : Parser Γ α} (accepts : α → Bool) (reason : String)
      (h : Composed p) : Composed (p.filter accepts reason)
  | rephrase {Γ : Scope} {α : Type} {p : Parser Γ α} (reason : String) (h : Composed p) :
      Composed (p.rephrase reason)
  | atomically {Γ : Scope} {α : Type} {p : Parser Γ α} (h : Composed p) : Composed p.atomically
  | tryParse {Γ : Scope} {α : Type} {p : Parser Γ α} (h : Composed p) : Composed p.tryParse
  | many {Γ : Scope} {α : Type} {p : Parser Γ α} (h : Composed p) : Composed p.many
  | many1 {Γ : Scope} {α : Type} {p : Parser Γ α} (h : Composed p) : Composed p.many1
  | oneOf {Γ : Scope} {α : Type} {ps : List (Parser Γ α)} (h : ∀ p ∈ ps, Composed p) :
      Composed (.oneOf ps)
  | oneOfLabeled {Γ : Scope} {α : Type} {alternatives : List (String × Parser Γ α)}
      (h : ∀ a ∈ alternatives, Composed a.2) : Composed (.oneOfLabeled alternatives)
  | bracket {Γ : Scope} {α β σ : Type} {before : Parser Γ β} {after : Parser Γ σ}
      {inside : Parser Γ α} (hbefore : Composed before) (hafter : Composed after)
      (hinside : Composed inside) : Composed (.bracket before after inside)
  | chain1 {Γ : Scope} {τ σ : Type} {term : Parser Γ τ} {separator : Parser Γ σ}
      (hterm : Composed term) (hseparator : Composed separator) : Composed (term.chain1 separator)
  | chain {Γ : Scope} {τ σ : Type} {term : Parser Γ τ} {separator : Parser Γ σ}
      (hterm : Composed term) (hseparator : Composed separator) : Composed (term.chain separator)
  | chainLeft {Γ : Scope} {τ σ : Type} {term : Parser Γ τ} {separator : Parser Γ σ}
      (combine : τ → τ → σ → τ) (hterm : Composed term) (hseparator : Composed separator) :
      Composed (term.chainLeft separator combine)
  | chainRight {Γ : Scope} {τ σ : Type} {term : Parser Γ τ} {separator : Parser Γ σ}
      (combine : τ → τ → σ → τ) (hterm : Composed term) (hseparator : Composed separator) :
      Composed (term.chainRight separator combine)
  | standIn {Γ : Scope} {α : Type} (v : StandIn Γ α) : Composed (standIn v)
  | recursive {Γ : Scope} {α : Type} {define : Parser (α :: Γ) α → Parser (α :: Γ) α}
      (h : Composed (define (.standIn .here))) : Composed (.recursive define)
  | outlived {Γ : Scope} {α β : Type} {p : Parser (β :: Γ) α} (h : Composed p) :
      Composed p.outlived

/-! ## What composed parsers look at -/

/-- Punctuation is a literal with white space about it, which is skipped by an operation of its own.
-/
private theorem plain_punctuation (symbol : String) :
    (Json.punctuation symbol : Parser Γ Unit).rule.Plain :=
  ⟨rfl, fun _ => ⟨rfl, fun _ => ⟨rfl, fun _ => trivial⟩⟩⟩

/-- The token matches its pattern at the cursor, and fails or not by what it makes of the text that
was found. -/
private theorem plain_decimal : (Token.decimal : Parser Γ Binary64).rule.Plain := by
  refine ⟨rfl, fun numeral => ?_⟩
  dsimp only
  split <;> trivial

/-- Quoted texts as well, for either of the quotes. The second pass is made on the value. -/
private theorem plain_quoted (name : String) (pattern : Pattern) :
    (Token.quoted name pattern : Parser Γ String).rule.Plain :=
  ⟨rfl, fun _ => trivial⟩

/-- **JSON is put together** from the tokens by the combinators, with a stand-in for the values
inside. -/
private theorem plain_jsonValue : (Json.value : Parser Γ Json.Value).rule.Plain := by
  have value : (standIn .here : Parser (Json.Value :: Γ) Json.Value).rule.Plain := trivial
  have member : (Json.member (standIn .here : Parser (Json.Value :: Γ) Json.Value)).rule.Plain :=
    ⟨plain_quoted _ _, fun _ => ⟨plain_punctuation ":", fun _ => ⟨value, fun _ => trivial⟩⟩⟩
  have comma : (Json.punctuation "," : Parser (Json.Value :: Γ) Unit).rule.Plain :=
    plain_punctuation ","
  have boolean : (Token.boolean : Parser (Json.Value :: Γ) Bool).rule.Plain :=
    ⟨rfl, fun _ => trivial⟩
  have null : (Parser.literal "null" : Parser (Json.Value :: Γ) String).rule.Plain := rfl
  show Rule.Within Operation.isPlain false (Json.valueOf (standIn .here)).rule
  refine Rule.Within.oneOfLabeled fun a ha => ?_
  simp only [List.map_cons, List.map_nil, List.mem_cons, List.not_mem_nil, or_false] at ha
  -- In the order of the alternatives: number, string, truth value, null, object, array.
  rcases ha with rfl | rfl | rfl | rfl | rfl | rfl
  · exact Rule.Within.map plain_decimal _
  · exact Rule.Within.map (plain_quoted _ _) _
  · exact Rule.Within.map boolean _
  · exact Rule.Within.map null _
  · exact (Rule.Within.bracket (plain_punctuation _) (plain_punctuation _)
      (member.chain comma)).map _
  · exact (Rule.Within.bracket (plain_punctuation _) (plain_punctuation _)
      (value.chain comma)).map _

/-- A composed parser uses no operation that a hand is needed for. -/
theorem Composed.isPlain {p : Parser Γ α} (h : p.Composed) : p.rule.Plain := by
  induction h with
  | anyChar | literal | pattern | ending | peek | rest | blanks | blanks1 => exact rfl
  | ret | fail | standIn => trivial
  | char expected =>
    refine ⟨rfl, fun c => ?_⟩
    dsimp only
    split <;> trivial
  | charIn expected =>
    refine ⟨rfl, fun c => ?_⟩
    dsimp only
    split <;> trivial
  | integer =>
    refine ⟨rfl, fun numeral => ?_⟩
    dsimp only
    split <;> trivial
  | decimal => exact plain_decimal
  | boolean => exact ⟨rfl, fun _ => trivial⟩
  | doubleQuoted | singleQuoted => exact plain_quoted _ _
  | json => exact plain_jsonValue
  | map f _ ih => exact Rule.Within.map ih f
  | pair _ _ ihp ihq => exact ⟨ihp, fun _ => ⟨ihq, fun _ => trivial⟩⟩
  | andThen _ _ ihp ihnext => exact ⟨ihp, ihnext⟩
  | filter accepts reason _ ih => exact Rule.Within.filter ih accepts reason
  | rephrase _ _ ih | atomically _ ih | many _ ih | recursive _ ih | outlived _ ih => exact ih
  | tryParse _ ih => exact ih
  | many1 _ ih => exact Rule.Within.many1 ih
  | oneOf _ ih =>
    refine Rule.Within.oneOf fun r hr => ?_
    obtain ⟨p, hp, rfl⟩ := List.mem_map.1 hr
    exact ih p hp
  | oneOfLabeled _ ih =>
    refine Rule.Within.oneOfLabeled fun a ha => ?_
    obtain ⟨b, hb, rfl⟩ := List.mem_map.1 ha
    exact ih b hb
  | bracket _ _ _ ihbefore ihafter ihinside => exact ihbefore.bracket ihafter ihinside
  | chain1 _ _ ihterm ihseparator => exact ihterm.chain1 ihseparator
  | chain _ _ ihterm ihseparator => exact ihterm.chain ihseparator
  | chainLeft combine _ _ ihterm ihseparator => exact ihterm.chainLeft ihseparator combine
  | chainRight combine _ _ ihterm ihseparator => exact ihterm.chainRight ihseparator combine

/-- So it looks only at what lies ahead, and may be moved behind any other text without a change. -/
theorem Composed.isLocal {p : Parser Γ α} (h : p.Composed) : p.rule.Local :=
  h.isPlain.mono fun o => by cases o <;> simp [Operation.isPlain, Operation.isLocal]

/-- It asks for no failure, and may be part of a blind rule written by hand. -/
theorem Composed.isBlind {p : Parser Γ α} (h : p.Composed) : p.rule.Blind :=
  h.isPlain.mono fun o => by cases o <;> simp [Operation.isPlain, Operation.isBlind]

end Parser

end Descent
