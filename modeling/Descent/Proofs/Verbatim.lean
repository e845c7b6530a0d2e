/-
Nothing is lost.

For a parser that keeps all it reads, the value is the text in pieces: a character or a
word stands for itself, and a pair, a list or a chain for its parts in a row. How values of
a type are written so is a function, and it is fixed by the way the parser was built
(`Parser.Verbatim`). Whenever such a parser succeeds, what it consumed is just how its value
is written (`run_eq_done`): no text is lost, none comes twice or in another order, and what
an attempt had read that was taken back is neither in the value nor consumed.
-/
import Descent.Proofs.Token.Advance

set_option autoImplicit false

namespace Descent

open Text

variable {Γ : Scope} {α β τ σ : Type}

/-! ## How values are written -/

/-- A chain: its first term, and each separator before the term behind it. -/
def Chain.pieces (term : τ → List Char) (separator : σ → List Char) : Chain τ σ → List Char
  | .empty => []
  | .links head tail => term head ++ tail.flatMap fun (s, t) => separator s ++ term t

/-- How the values are written that the stand-ins read. -/
abbrev Spelling (Γ : Scope) : Type 1 := (α : Type) → StandIn Γ α → α → List Char

/-- One more stand-in. -/
def Spelling.extend (Φ : Spelling Γ) (pieces : α → List Char) : Spelling (α :: Γ)
  | _, .here => pieces
  | _, .outer v => Φ _ v

namespace Parser

/-- The parser keeps all it reads, and its values are written as `pieces` says, where those of
the stand-ins are written as `Φ` says. -/
inductive Verbatim : {Γ : Scope} → Spelling Γ → {α : Type} → Parser Γ α → (α → List Char) → Prop
  | anyChar {Γ : Scope} {Φ : Spelling Γ} : Verbatim Φ anyChar fun c => [c]
  | char {Γ : Scope} {Φ : Spelling Γ} (expected : Char) : Verbatim Φ (char expected) fun c => [c]
  | charIn {Γ : Scope} {Φ : Spelling Γ} (expected : List Char) :
      Verbatim Φ (charIn expected) fun c => [c]
  | literal {Γ : Scope} {Φ : Spelling Γ} (expected : String) :
      Verbatim Φ (literal expected) String.toList
  | pattern {Γ : Scope} {Φ : Spelling Γ} {p : Pattern} (leads : p.Leads) :
      Verbatim Φ (pattern p) String.toList
  | blanks {Γ : Scope} {Φ : Spelling Γ} : Verbatim Φ Token.blanks String.toList
  | blanks1 {Γ : Scope} {Φ : Spelling Γ} : Verbatim Φ Token.blanks1 String.toList
  | ending {Γ : Scope} {Φ : Spelling Γ} : Verbatim Φ ending fun _ => []
  | boolean {Γ : Scope} {Φ : Spelling Γ} :
      Verbatim Φ Token.boolean fun b => if b then "true".toList else "false".toList
  /-- A value may be put into another that is written alike, as a leaf into a tree. -/
  | map {Γ : Scope} {Φ : Spelling Γ} {α β : Type} {p : Parser Γ α} {f : α → List Char}
      {g : β → List Char} (k : α → β) (h : Verbatim Φ p f) (hk : ∀ a, g (k a) = f a) :
      Verbatim Φ (p.map k) g
  | pair {Γ : Scope} {Φ : Spelling Γ} {α β : Type} {p : Parser Γ α} {q : Parser Γ β}
      {f : α → List Char} {g : β → List Char} (hp : Verbatim Φ p f) (hq : Verbatim Φ q g) :
      Verbatim Φ (p.pair q) fun (a, b) => f a ++ g b
  | filter {Γ : Scope} {Φ : Spelling Γ} {α : Type} {p : Parser Γ α} {f : α → List Char}
      (accepts : α → Bool) (reason : String) (h : Verbatim Φ p f) :
      Verbatim Φ (p.filter accepts reason) f
  | rephrase {Γ : Scope} {Φ : Spelling Γ} {α : Type} {p : Parser Γ α} {f : α → List Char}
      (reason : String) (h : Verbatim Φ p f) : Verbatim Φ (p.rephrase reason) f
  | atomically {Γ : Scope} {Φ : Spelling Γ} {α : Type} {p : Parser Γ α} {f : α → List Char}
      (h : Verbatim Φ p f) : Verbatim Φ p.atomically f
  | tryParse {Γ : Scope} {Φ : Spelling Γ} {α : Type} {p : Parser Γ α} {f : α → List Char}
      (h : Verbatim Φ p f) : Verbatim Φ p.tryParse fun o => (o.map f).getD []
  | many {Γ : Scope} {Φ : Spelling Γ} {α : Type} {p : Parser Γ α} {f : α → List Char}
      (h : Verbatim Φ p f) : Verbatim Φ p.many fun as => as.flatMap f
  | many1 {Γ : Scope} {Φ : Spelling Γ} {α : Type} {p : Parser Γ α} {f : α → List Char}
      (h : Verbatim Φ p f) : Verbatim Φ p.many1 fun as => as.flatMap f
  | oneOf {Γ : Scope} {Φ : Spelling Γ} {α : Type} {ps : List (Parser Γ α)} {f : α → List Char}
      (h : ∀ p ∈ ps, Verbatim Φ p f) : Verbatim Φ (.oneOf ps) f
  | oneOfLabeled {Γ : Scope} {Φ : Spelling Γ} {α : Type}
      {alternatives : List (String × Parser Γ α)} {f : α → List Char}
      (h : ∀ a ∈ alternatives, Verbatim Φ a.2 f) : Verbatim Φ (.oneOfLabeled alternatives) f
  | chain1 {Γ : Scope} {Φ : Spelling Γ} {τ σ : Type} {term : Parser Γ τ} {separator : Parser Γ σ}
      {f : τ → List Char} {g : σ → List Char} (hterm : Verbatim Φ term f)
      (hseparator : Verbatim Φ separator g) :
      Verbatim Φ (term.chain1 separator) (Chain.pieces f g)
  | chain {Γ : Scope} {Φ : Spelling Γ} {τ σ : Type} {term : Parser Γ τ} {separator : Parser Γ σ}
      {f : τ → List Char} {g : σ → List Char} (hterm : Verbatim Φ term f)
      (hseparator : Verbatim Φ separator g) : Verbatim Φ (term.chain separator) (Chain.pieces f g)
  /-- What combines two sides and a separator is written with the separator between the sides. -/
  | chainLeft {Γ : Scope} {Φ : Spelling Γ} {τ σ : Type} {term : Parser Γ τ}
      {separator : Parser Γ σ} {f : τ → List Char} {g : σ → List Char} {combine : τ → τ → σ → τ}
      (hterm : Verbatim Φ term f) (hseparator : Verbatim Φ separator g)
      (hcombine : ∀ lhs rhs s, f (combine lhs rhs s) = f lhs ++ g s ++ f rhs) :
      Verbatim Φ (term.chainLeft separator combine) f
  | chainRight {Γ : Scope} {Φ : Spelling Γ} {τ σ : Type} {term : Parser Γ τ}
      {separator : Parser Γ σ} {f : τ → List Char} {g : σ → List Char} {combine : τ → τ → σ → τ}
      (hterm : Verbatim Φ term f) (hseparator : Verbatim Φ separator g)
      (hcombine : ∀ lhs rhs s, f (combine lhs rhs s) = f lhs ++ g s ++ f rhs) :
      Verbatim Φ (term.chainRight separator combine) f
  | standIn {Γ : Scope} {Φ : Spelling Γ} {α : Type} (v : StandIn Γ α) :
      Verbatim Φ (standIn v) (Φ α v)
  | recursive {Γ : Scope} {Φ : Spelling Γ} {α : Type}
      {define : Parser (α :: Γ) α → Parser (α :: Γ) α} {f : α → List Char}
      (h : Verbatim (Φ.extend f) (define (.standIn .here)) f) : Verbatim Φ (.recursive define) f
  | outlived {Γ : Scope} {Φ : Spelling Γ} {α β : Type} {p : Parser (β :: Γ) α}
      {f : α → List Char} {g : β → List Char} (h : Verbatim (Φ.extend g) p f) :
      Verbatim Φ p.outlived f

end Parser

/-! ## What is read is what is written -/

/-- Just as the pieces say. -/
def Written (pieces : α → List Char) (u : List Char) (a : α) : Prop :=
  u = pieces a

namespace Written

variable {f : τ → List Char} {g : σ → List Char}

/-- Things in a row are written one behind the other, which is what a list of them is written as. -/
theorem row {u : List Char} {ts : List τ} (h : Row (Written f) u ts) :
    Written (fun ts => ts.flatMap f) u ts := by
  induction h with
  | nil => rfl
  | cons ht _ ih =>
    rw [Written] at ih ht ⊢
    rw [List.flatMap_cons, ← ih, ← ht]

/-- By the row of links: each separator is written before the term behind it. -/
theorem chain {u : List Char} {c : Chain τ σ} (h : c.Spelled (Written f) (Written g) u) :
    Written (Chain.pieces f g) u c := by
  have links {cs : List Char} {tail : List (σ × τ)}
      (h : Row (Chain.Link (Written f) (Written g)) cs tail) :
      cs = tail.flatMap fun (s, t) => g s ++ f t := by
    induction h with
    | nil => rfl
    | cons hlink _ ih =>
      obtain ⟨hs, ht⟩ := hlink
      rw [List.flatMap_cons, ← ih, hs, ht]
  cases h with
  | empty => rfl
  | links hhead htail => rw [Written, Chain.pieces, ← hhead, ← links htail]

/-- A fold that combines values as they are written gives a value that is written as the chain was.
-/
theorem combine {combine : τ → τ → σ → τ}
    (hcombine : ∀ lhs rhs s, f (combine lhs rhs s) = f lhs ++ g s ++ f rhs)
    (u v w : List Char) (l : τ) (s : σ) (r : τ) (hl : Written f u l) (hs : Written g v s)
    (hr : Written f w r) : Written f (u ++ (v ++ w)) (combine l r s) := by
  rw [Written, hcombine, ← hl, ← hs, ← hr, List.append_assoc]

end Written

namespace Parser

variable {limits : Limits}

/-- A parser that keeps all it reads goes through what its values are written as. -/
theorem Verbatim.advances {Φ : Spelling Γ} {p : Parser Γ α} {f : α → List Char}
    (h : p.Verbatim Φ f) {ρ : Environment Γ}
    (hρ : ∀ (β : Type) (v : StandIn Γ β), ∀ b ∈ ρ β v, b.Advances (Written (Φ β v)) False) :
    p.rule.Advances limits ρ (Written f) False := by
  induction h with
  | anyChar => exact Rule.Advances.char fun _ => rfl
  | char | charIn => exact Rule.Advances.charIf _ _
  | literal expected => exact Rule.Advances.literal rfl
  | pattern leads => exact Token.advances_pattern leads
  | blanks | blanks1 => exact Token.advances_of_mem (by simp [Token.patterns])
  | ending => exact Rule.Advances.ending rfl
  | boolean => exact Token.advances_boolean
  | map k _ hk ih => exact (ih hρ).map fun u a ha => ha.trans (hk a).symm
  | pair _ _ ihp ihq =>
    refine (ihp hρ).bind fun u a ha => (ihq hρ).bind fun v b hb => Rule.Advances.pure ?_
    rw [List.append_nil, ha, hb]
    rfl
  | filter accepts reason _ ih => exact (ih hρ).filter accepts reason
  | rephrase reason _ ih => exact (ih hρ).rephrase reason
  | atomically _ ih => exact (ih hρ).atomically
  | tryParse _ ih => exact (ih hρ).tryParse (fun _ _ h => h) rfl
  | many _ ih => exact (ih hρ).many.mono fun _ _ => Written.row
  | many1 _ ih => exact (ih hρ).many1.mono fun _ _ => Written.row
  | oneOf _ ih =>
    refine Rule.Advances.oneOf (F := False) (fun r hr => ?_) not_false
    obtain ⟨p, hp, rfl⟩ := List.mem_map.1 hr
    exact ih p hp hρ
  | oneOfLabeled _ ih =>
    refine Rule.Advances.oneOfLabeled (F := False) fun a ha => ?_
    obtain ⟨b, hb, rfl⟩ := List.mem_map.1 ha
    exact ih b hb hρ
  | chain1 _ _ ihterm ihseparator =>
    exact ((ihterm hρ).chain1 (ihseparator hρ)).mono fun _ _ => Written.chain
  | chain _ _ ihterm ihseparator =>
    exact ((ihterm hρ).chain (ihseparator hρ)).mono fun _ _ => Written.chain
  | chainLeft _ _ hcombine ihterm ihseparator =>
    exact Rule.Advances.chainLeft (Written.combine hcombine) (ihterm hρ) (ihseparator hρ)
  | chainRight _ _ hcombine ihterm ihseparator =>
    exact Rule.Advances.chainRight (Written.combine hcombine) (ihterm hρ) (ihseparator hρ)
  | standIn v => exact Rule.Advances.reference fun b hb => hρ _ v b hb
  | recursive _ ih =>
    refine Rule.Advances.recursive fun b hb => ih (Environment.forall_extend ?_ hρ)
    rintro _ ⟨⟩
    exact hb
  | outlived _ ih => exact ih (Environment.forall_extend (fun _ hb => by cases hb) hρ)

/-- **Nothing is lost, doubled or moved.** Where a run that began behind `front` ends with a
value, the value's pieces in a row are the text up to where it ended. -/
theorem Verbatim.run_eq_done {Φ : Spelling []} {p : Parser [] α} {pieces : α → List Char}
    (h : p.Verbatim Φ pieces) (limits : Limits) {s t : State} {front cs : List Char} {a : α}
    (text : s.text = front ++ cs) (cursor : s.cursor = byteLength front)
    (run : p.rule.run limits .undefined s = .done a t) :
    ∃ rest, cs = pieces a ++ rest ∧ t.text = s.text ∧
      t.cursor = byteLength (front ++ pieces a) := by
  have ahead : s.ahead? = some cs := by
    rw [State.ahead?, text, cursor]
    exact dropBytes_append front cs
  have advances : p.rule.Advances limits .undefined (Written pieces) False :=
    h.advances fun _ v => by cases v
  have way := advances s cs ahead
  rw [run] at way
  cases way with
  | done way hu =>
    have place := way.cursor_eq
    obtain ⟨same, here, -⟩ := way
    rw [Written] at hu
    rw [hu] at here place
    refine ⟨_, Option.some.inj (ahead.symm.trans here), same, ?_⟩
    rw [byteLength_append, ← cursor, place]

/-- Behind a character of two bytes: a term is tried in two ways, and the last comma, with no term
behind it, is given back and read by the next parser. -/
theorem Verbatim.run_eq_done_dangling :
    let p : Parser [] (Chain String Char × List Char) :=
      ((Parser.oneOf [.literal "ab", .literal "a"]).chain (.char ',')).pair (.many .anyChar)
    let a : Chain String Char × List Char := (.links "a" [(',', "ab")], [',', 'x'])
    ∃ t, p.rule.run ⟨1, 5⟩ .undefined { State.start "ża,ab,x" with cursor := 2 } = .done a t ∧
      ∃ rest, "a,ab,x".toList = "a,ab,x".toList ++ rest ∧ t.text = "ża,ab,x".toList ∧
        t.cursor = byteLength "ża,ab,x".toList := by
  intro p a
  have verbatim : p.Verbatim (fun _ v => by cases v) fun (c, cs) =>
      Chain.pieces String.toList (fun c => [c]) c ++ cs.flatMap fun c => [c] := by
    refine .pair (.chain (.oneOf fun q hq => ?_) (.char ',')) (.many .anyChar)
    simp only [List.mem_cons, List.not_mem_nil, or_false] at hq
    rcases hq with rfl | rfl
    · exact .literal "ab"
    · exact .literal "a"
  have text : "ża,ab,x".toList = "ż".toList ++ "a,ab,x".toList := by decide
  -- The text as its characters, as it would be decoded anew at every step.
  have chars : "ża,ab,x".toList = ['ż', 'a', ',', 'a', 'b', ',', 'x'] := by decide
  obtain ⟨t, run⟩ : ∃ t,
      p.rule.run ⟨1, 5⟩ .undefined { State.start "ża,ab,x" with cursor := 2 } = .done a t := by
    rw [State.start, chars]
    exact ⟨_, rfl⟩
  exact ⟨t, run, Verbatim.run_eq_done verbatim ⟨1, 5⟩ text rfl run⟩

end Parser

end Descent
