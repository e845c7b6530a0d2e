/-
Arithmetic expressions are evaluated.

The grammar of expressions is built from below: atoms, products as left folds of atoms,
sums as left folds of products, and parentheses that lead back to the whole
(`expression`). It reads every expression that is written as a tree to the value of that
tree (`parseToEnd_print`).

What it takes is that each level stops where it should (`Before`). An atom stops where no digit
follows, a product where no multiplication sign follows either, and a sum, which is the whole,
where no plus and no minus does. That a minus is a sign as well as an operator does no harm:
a term is never looked for right behind a term, and an operator nowhere else.
-/
import Descent.Proofs.Arithmetic.Expression
import Descent.Proofs.Token.Integer

set_option autoImplicit false

namespace Descent.Arithmetic

variable {Γ : Scope}

/-! ## The grammar -/

/-- An integer, or an expression in parentheses. -/
def atom (whole : Parser Γ Int64) : Parser Γ Int64 :=
  .oneOf [Token.integer, .bracket (.char '(') (.char ')') whole]

/-- Atoms with multiplication signs between them, combined from the left. -/
def product (whole : Parser Γ Int64) : Parser Γ Int64 :=
  .chainLeft (atom whole) (.char '*') multiply

/-- Products with plus or minus between them, combined from the left by the operator that was read.
-/
def sum (whole : Parser Γ Int64) : Parser Γ Int64 :=
  .chainLeft (product whole) (.oneOf [.char '+', .char '-']) addOrSubtract

/-- Sums of products of integers and parentheses. -/
def expression : Parser Γ Int64 :=
  .recursive sum

/-! ## Symbols -/

/-- What is read may end before this: neither a digit nor one of the symbols comes next. -/
def Before (symbols : List Char) (rest : List Char) : Prop :=
  ∀ c ∈ rest.head?, c.isDigit = false ∧ c ∉ symbols

variable {limits : Limits} {ρ : Environment Γ} {cs rest u : List Char} {c : Char}

/-- Where a sum may end, a product may end too, and where a product may, an atom. So what follows
the whole is passed down. -/
theorem Before.mono {symbols symbols' : List Char} (h : Before symbols rest)
    (hs : symbols' ⊆ symbols) : Before symbols' rest :=
  fun c hc => ⟨(h c hc).1, fun hmem => (h c hc).2 (hs hmem)⟩

/-- A character is read where it stands. All operators and parentheses are single characters. -/
theorem char_complete : (Parser.char c : Parser Γ Char).rule.Meets limits ρ (c :: rest)
    (· = some (c, rest)) := by
  refine Rule.Meets.bind_some (b := c) (Rule.Meets.peek rfl) ?_
  rw [if_pos (beq_self_eq_true c)]
  exact Rule.Meets.char rfl

/-- And it fails where another one stands, which ends the chain that it would have gone on with. -/
theorem char_fails (h : ∀ d ∈ rest.head?, d ≠ c) :
    (Parser.char c : Parser Γ Char).rule.Meets limits ρ rest (· = none) := by
  cases rest with
  | nil => exact Rule.Meets.bind_none (Rule.Meets.peek rfl)
  | cons d ds =>
    refine Rule.Meets.bind_some (Rule.Meets.peek rfl) ?_
    have differs : ¬ (d == c) = true := by simpa using h d rfl
    rw [if_neg differs]
    exact Rule.Meets.fail rfl

/-! ## Atoms -/

/-- The decimal text of an integer is read back as this integer, if no digit follows that would be
taken along. -/
theorem integer_complete (n : Int64) (hrest : Before [] rest) :
    (Token.integer : Parser Γ Int64).rule.Meets limits ρ ((toString n).toList ++ rest)
      (· = some (n, rest)) := by
  obtain ⟨sign, digits, hsign, hne, hdigits, hn, text⟩ := Token.exists_digits_toString n
  have found := Token.integerPattern_find?_text hsign hne hdigits fun c hc => (hrest c hc).1
  rw [text]
  refine Rule.Meets.bind_some (Rule.Meets.matchPattern rfl found rfl) ?_
  rw [String.toList_ofList, Token.int64?_append hsign hne hdigits hn]
  exact Rule.Meets.pure rfl

/-- A parenthesis is not the beginning of an integer, so the second alternative has its turn. -/
theorem integer_fails : (Token.integer : Parser Γ Int64).rule.Meets limits ρ ('(' :: rest)
    (· = none) := by
  refine Rule.Meets.bind_none (Rule.Meets.matchPattern_none ?_ rfl)
  rw [Option.eq_none_iff_forall_ne_some]
  rintro found hfound
  obtain ⟨sign, digits, _, hsign, hne, hdigits, rfl, htext⟩ := Token.exists_digits_of_find? hfound
  -- A numeral would begin with its sign or its first digit, and a parenthesis is neither.
  cases sign with
  | none =>
    obtain ⟨d, ds, rfl⟩ := List.exists_cons_of_ne_nil hne
    cases htext
    exact absurd (hdigits '(' List.mem_cons_self) (by decide)
  | some c =>
    cases htext
    exact absurd (hsign '(' rfl) (by decide)

/-- The whole is read as it is written, in texts shorter than this. -/
def ReadsWhole (limits : Limits) (ρ : Environment Γ) (bound : Nat) (whole : Parser Γ Int64) :
    Prop :=
  ∀ (e : Expression) (rest : List Char), Before ['*', '+', '-'] rest →
    (e.print.toList ++ rest).length < bound →
    whole.rule.Meets limits ρ (e.print.toList ++ rest) (· = some (Int64.ofInt e.value, rest))

variable {bound : Nat} {whole : Parser Γ Int64} {a : Int64}

/-- Inside parentheses the whole is read again, from a text that is shorter by one character at
least. -/
theorem bracket_complete (hwhole : ReadsWhole limits ρ bound whole) (e : Expression)
    (hbound : ('(' :: (e.print.toList ++ ')' :: rest)).length ≤ bound) :
    (Parser.bracket (.char '(') (.char ')') whole).rule.Meets limits ρ
      ('(' :: (e.print.toList ++ ')' :: rest)) (· = some (Int64.ofInt e.value, rest)) := by
  have closes : Before ['*', '+', '-'] (')' :: rest) := fun c hc => by
    cases hc
    decide
  have inside := hwhole e (')' :: rest) closes hbound
  refine Rule.Meets.atomically (Rule.Meets.bind_some char_complete ?_)
  exact Rule.Meets.bind_some inside (Rule.Meets.bind_some char_complete (Rule.Meets.pure rfl))

/-- An integer or parentheses: the first character tells which, so the choice takes the right one.
-/
theorem atom_complete (hwhole : ReadsWhole limits ρ bound whole) (hu : Atom u a)
    (hrest : Before [] rest) (hbound : (u ++ rest).length ≤ bound) :
    (atom whole).rule.Meets limits ρ (u ++ rest) (· = some (a, rest)) := by
  cases hu with
  | literal =>
    exact Rule.Meets.orElse (integer_complete a hrest) (fun _ _ h => h) fun h => by cases h
  | parenthesized e =>
    have text : '(' :: (e.print.toList ++ [')']) ++ rest =
        '(' :: (e.print.toList ++ ')' :: rest) := by simp
    rw [text] at hbound ⊢
    refine Rule.Meets.orElse integer_fails (fun _ _ h => by cases h) fun _ => ?_
    exact Rule.Meets.rewind (bracket_complete hwhole e hbound)

/-! ## Products and sums -/

/-- What the lemma on folds asks of the parts of a product: atoms and signs are read as they are
written, and an atom may end before a sign. -/
theorem readsChain_atom (hwhole : ReadsWhole limits ρ bound whole) :
    ReadsChain limits ρ bound (atom whole).rule (Parser.char '*').rule Atom (Among ['*'])
      (Before []) where
  term hu hrest hbound := atom_complete hwhole hu hrest hbound
  separator := by
    rintro _ rest c ⟨rfl, hc⟩
    rw [List.mem_singleton.1 hc]
    exact char_complete
  ends := by
    rintro _ rest c ⟨rfl, hc⟩ d hd
    cases hd
    rw [List.mem_singleton.1 hc]
    decide
  nonempty := by
    rintro c ⟨h, _⟩
    cases h

/-- A product is read as the left fold of its atoms, up to where no multiplication sign follows. -/
theorem product_complete (hwhole : ReadsWhole limits ρ bound whole) (rounds : bound < limits.rounds)
    (hu : Product u a) (hrest : Before ['*'] rest) (hbound : (u ++ rest).length ≤ bound) :
    (product whole).rule.Meets limits ρ (u ++ rest) (· = some (a, rest)) := by
  have ends : Before [] rest := hrest.mono (by simp)
  have stop : (Parser.char '*').rule.Meets limits ρ rest (· = none) :=
    char_fails fun c hc heq => (hrest c hc).2 (by simp [heq])
  exact Rule.Meets.chainLeft_complete (readsChain_atom hwhole) rounds hu ends stop hbound

/-- Either operator of a sum is read as itself, as the value is combined by it. -/
theorem sign_complete (hc : c ∈ ['+', '-']) :
    (Parser.oneOf [.char '+', .char '-'] : Parser Γ Char).rule.Meets limits ρ (c :: rest)
      (· = some (c, rest)) := by
  by_cases plus : c = '+'
  · rw [plus]
    exact Rule.Meets.orElse char_complete (fun _ _ h => h) fun h => by cases h
  · have minus : c = '-' := by simpa [plus] using hc
    rw [minus]
    refine Rule.Meets.orElse (char_fails fun d hd => ?_) (fun _ _ h => by cases h) fun _ => ?_
    · cases hd
      decide
    · exact Rule.Meets.rewind char_complete

/-- Where neither follows, the second alternative has failed at the same place as the first, and the
chain ends. -/
theorem sign_fails (h : ∀ c ∈ rest.head?, c ∉ ['+', '-']) :
    (Parser.oneOf [.char '+', .char '-'] : Parser Γ Char).rule.Meets limits ρ rest (· = none) := by
  have fails (d : Char) (hd : d ∈ ['+', '-']) :
      (Parser.char d : Parser Γ Char).rule.Meets limits ρ rest (· = none) := by
    apply char_fails
    rintro c hc rfl
    exact h c hc hd
  refine Rule.Meets.orElse (fails '+' (by decide)) (fun _ _ h => by cases h) fun _ => ?_
  exact Rule.Meets.rewind (fails '-' (by decide))

/-- The same of the parts of a sum, where there are two operators in place of one. A product may end
before either. -/
theorem readsChain_product (hwhole : ReadsWhole limits ρ bound whole)
    (rounds : bound < limits.rounds) :
    ReadsChain limits ρ bound (product whole).rule
      (Parser.oneOf [.char '+', .char '-'] : Parser Γ Char).rule Product (Among ['+', '-'])
      (Before ['*']) where
  term hu hrest hbound := product_complete hwhole rounds hu hrest hbound
  separator := by
    rintro _ rest c ⟨rfl, hc⟩
    exact sign_complete hc
  ends := by
    rintro _ rest c ⟨rfl, hc⟩ d hd
    cases hd
    have sign : c = '+' ∨ c = '-' := by simpa using hc
    rcases sign with rfl | rfl <;> decide
  nonempty := by
    rintro c ⟨h, _⟩
    cases h

/-- A sum is read as the left fold of its products. As it is the whole, nothing stands behind it but
a parenthesis or the end. -/
theorem sum_complete (hwhole : ReadsWhole limits ρ bound whole) (rounds : bound < limits.rounds)
    (hu : Sum u a) (hrest : Before ['*', '+', '-'] rest) (hbound : (u ++ rest).length ≤ bound) :
    (sum whole).rule.Meets limits ρ (u ++ rest) (· = some (a, rest)) := by
  have ends : Before ['*'] rest := hrest.mono (by simp)
  have stop : (Parser.oneOf [.char '+', .char '-'] : Parser Γ Char).rule.Meets limits ρ rest
      (· = none) := sign_fails fun c hc h => (hrest c hc).2 (List.mem_cons_of_mem _ h)
  exact Rule.Meets.chainLeft_complete (readsChain_product hwhole rounds) rounds hu ends stop hbound

/-! ## Expressions -/

/-- **Expressions are read** as they are written, on any depth that suffices for the text. -/
theorem expression_complete (ρ : Environment Γ) (depth : Nat) (e : Expression)
    (hrest : Before ['*', '+', '-'] rest) (hdepth : (e.print.toList ++ rest).length < depth)
    (hrounds : (e.print.toList ++ rest).length < limits.rounds) :
    (Behaviour.fixed (fun self => (sum (.standIn .here)).rule.run limits (ρ.extend (some self)))
      depth).Meets (e.print.toList ++ rest) (· = some (Int64.ofInt e.value, rest)) := by
  induction depth generalizing e rest with
  | zero => omega
  | succ depth ih =>
    -- The stand-in only has to read what is in parentheses, and that is shorter.
    have standIn : ReadsWhole limits (ρ.extend (some (Behaviour.fixed
        (fun self => (sum (.standIn .here)).rule.run limits (ρ.extend (some self))) depth)))
        (e.print.toList ++ rest).length (.standIn .here) := by
      rintro e' rest' hrest' shorter
      exact Rule.Meets.reference rfl (ih e' hrest' (by omega) (by omega))
    have level : Sum e.print.toList (Int64.ofInt e.value) := e.level_print (Nat.zero_le _)
    exact sum_complete standIn hrounds level hrest (Nat.le_refl _)

/-- **Every expression evaluates to its value**, wrapped to 64 bits, where its text is within
the limits. -/
theorem parseToEnd_print (limits : Limits) (e : Expression)
    (hdepth : e.print.length < limits.depth) (hrounds : e.print.length < limits.rounds) :
    (expression : Parser [] Int64).parseToEnd limits e.print false =
      .accepted (Int64.ofInt e.value) "" := by
  have nothing : Before ['*', '+', '-'] [] := fun c hc => by cases hc
  have length : (e.print.toList ++ []).length = e.print.length := by
    rw [List.append_nil, String.length_toList]
  have read : (expression : Parser [] Int64).rule.Meets limits .undefined (e.print.toList ++ [])
      (· = some (Int64.ofInt e.value, [])) :=
    expression_complete .undefined limits.depth e nothing (by omega) (by omega)
  rw [List.append_nil] at read
  have whole : (((expression : Parser [] Int64).rule.toEnd false).afterBlanks false).Meets limits
      .undefined e.print.toList (· = some (Int64.ofInt e.value, [])) := by
    have ended : (Rule.ending : Rule [] Unit).Meets limits .undefined [] (· = some ((), [])) :=
      Rule.Meets.ending (fun _ => rfl) fun h => absurd rfl h
    exact Rule.Meets.bind_some read (Rule.Meets.bind_some ended (Rule.Meets.pure rfl))
  rcases whole.verdict with ⟨a, rest, heq, accepted⟩ | ⟨heq, -⟩
  · cases heq
    exact accepted
  · cases heq

/-- The expression `2*(3+-4)--5*(6*7)`, in which a minus is an operator once and a sign twice, and
parentheses stand inside a product. -/
theorem parseToEnd_print_nested :
    (expression : Parser [] Int64).parseToEnd ⟨20, 20⟩ "2*(3+-4)--5*(6*7)" false =
      .accepted 208 "" := by
  let e : Expression := .operation .minus
    (.operation .times (.literal 2) (.operation .plus (.literal 3) (.literal (-4))))
    (.operation .times (.literal (-5)) (.operation .times (.literal 6) (.literal 7)))
  have text : e.print = "2*(3+-4)--5*(6*7)" := by decide +kernel
  have value : Int64.ofInt e.value = 208 := by decide +kernel
  have length : e.print.length < 20 := by decide +kernel
  have evaluated := parseToEnd_print ⟨20, 20⟩ e length length
  rw [text, value] at evaluated
  exact evaluated

end Descent.Arithmetic
