/-
What is read as JSON is JSON.

Each part of the reader reads what the grammar has in its place, with white space around it
that the grammar has elsewhere. For values this goes by the depth of nested readings. Inside
brackets at least one opening bracket has been read, so where the depth was enough for the
brackets ahead before, one less is enough for those that are left (`readValue_reads`).
-/
import Descent.Proofs.Json.Derivation
import Descent.Proofs.Token.Boolean
import Descent.Json.Grammar

set_option autoImplicit false

namespace Descent.Json

open Text

variable {Γ : Scope} {α : Type} {limits : Limits} {ρ : Environment Γ} {cs : List Char}

/-! ## Tokens -/

/-- What the token reads is a numeral, and what it gives is finite, which is what the grammar asks
of numbers. -/
theorem decimal_reads : (Token.decimal : Parser Γ Binary64).rule.Meets limits ρ cs
    (Reads (fun u x => Derives u (.number x)) cs) := by
  have numeral : (Rule.matchPattern Token.decimalPattern : Rule Γ String).Meets limits ρ cs
      (Reads (fun u s => s.toList = u ∧ ∃ p : Numeral.Parts, p.Valid isDecimalDigit ∧ u = p.text)
        cs) := by
    refine Rule.Meets.matchPattern_reads fun found hfound => ?_
    obtain ⟨p, rest, hp, heq, hcs⟩ := Token.exists_parts_of_find? hfound
    exact ⟨⟨rest, hcs⟩, String.toList_ofList, p, hp, heq⟩
  refine Rule.Meets.bind_reads numeral fun u rest s _ ⟨hs, p, hp, hu⟩ => ?_
  cases hfinite : Numeral.finite? s.toList with
  | none => exact Rule.Meets.fail fun a rest heq => by cases heq
  | some x =>
    refine Rule.Meets.pure_reads ?_
    -- Of the numerals in any script, those with a value are the ASCII ones.
    rw [hs, hu, Numeral.finite?, Numeral.Parts.binary64?_text hp] at hfinite
    obtain ⟨heq, hx⟩ := Option.filter_eq_some_iff.1 hfinite
    split at heq
    · next hdigits =>
      cases heq
      rw [hu, List.append_nil]
      exact .number (hp.ascii hdigits) hx
    · cases heq

/-- Between the quotes that are read some text is written, and this is the string. Both keys and
strings come by it. -/
theorem doubleQuoted_reads : (Token.doubleQuoted : Parser Γ String).rule.Meets limits ρ cs
    (Reads (fun u s => ∃ body meant, u = '"' :: (body ++ ['"']) ∧ Token.Writes '"' body meant ∧
      s = String.ofList meant) cs) := by
  have found : (Rule.matchPattern Token.doubleQuotedPattern : Rule Γ String).Meets limits ρ cs
      (Reads (fun u s => s.toList = u ∧
        ∃ body meant, u = '"' :: (body ++ ['"']) ∧ Token.Writes '"' body meant) cs) := by
    refine Rule.Meets.matchPattern_reads fun found hfound => ?_
    rw [Token.doubleQuotedPattern_find?_eq, Token.quoted_first_eq_some_iff (by decide)] at hfound
    obtain ⟨body, meant, rest, hwrites, rfl, rfl⟩ := hfound
    exact ⟨⟨rest, by simp⟩, String.toList_ofList, body, meant, rfl, hwrites⟩
  refine Rule.Meets.bind_reads found fun u rest s _ ⟨hs, body, meant, hu, hwrites⟩ =>
    Rule.Meets.pure_reads ⟨body, meant, ?_, hwrites, ?_⟩
  · rw [List.append_nil, hu]
  · rw [hs, hu, Token.inner_quoted, hwrites.unescape_eq]

/-- Either of the words is read with its own meaning. -/
theorem boolean_reads : (Token.boolean : Parser Γ Bool).rule.Meets limits ρ cs
    (Reads (fun u b => Derives u (.bool b)) cs) := by
  have word : (Rule.matchPattern Token.booleanPattern : Rule Γ String).Meets limits ρ cs
      (Reads (fun u s => u = s.toList ∧ (u = "true".toList ∨ u = "false".toList)) cs) := by
    refine Rule.Meets.matchPattern_reads fun found hfound => ?_
    obtain ⟨heq, hcs⟩ := Token.eq_of_booleanPattern_find? hfound
    exact ⟨hcs, String.toList_ofList.symm, heq⟩
  refine Rule.Meets.bind_reads word fun u rest s _ ⟨hs, hu⟩ => Rule.Meets.pure_reads ?_
  rw [List.append_nil]
  rcases hu with rfl | rfl
  · rw [← String.toList_injective hs]
    exact .bool true
  · rw [← String.toList_injective hs]
    exact .bool false

/-- The white space on both sides of a symbol is read with it. In the grammar it belongs to the
symbol for this reason. -/
theorem punctuation_reads {symbol : String} {c : Char} (hsymbol : symbol.toList = [c]) :
    (punctuation symbol : Parser Γ Unit).rule.Meets limits ρ cs (Reads (Symbol c) cs) := by
  refine Rule.Meets.bind_reads Rule.Meets.skipBlanks_reads fun w _ _ _ hw => ?_
  refine Rule.Meets.bind_reads (Rule.Meets.literal_reads symbol) fun v _ _ _ hv => ?_
  refine Rule.Meets.bind_reads Rule.Meets.skipBlanks_reads fun w' _ _ _ hw' => ?_
  refine Rule.Meets.pure_reads ?_
  rw [hv, hsymbol, List.append_nil]
  exact .mk hw hw'

/-! ## Brackets -/

/-- The number of brackets and braces that open. -/
def openings (cs : List Char) : Nat :=
  cs.countP fun c => c == '[' || c == '\x7b'

/-- Reading on, no brackets come up that were not ahead before. -/
theorem openings_le {rest : List Char} (h : rest <:+ cs) : openings rest ≤ openings cs :=
  h.sublist.countP_le

/-- The limits are enough for reading this text, with so many readings nested. -/
structure Within (limits : Limits) (depth : Nat) (cs : List Char) : Prop where
  depth : openings cs < depth
  rounds : cs.length < limits.rounds

/-- What is enough for a text is enough for the rest of it, so the limits need not be looked at
again from part to part. -/
theorem Within.suffix {depth : Nat} {rest : List Char} (h : Within limits depth cs)
    (hrest : rest <:+ cs) : Within limits depth rest where
  depth := Nat.lt_of_le_of_lt (openings_le hrest) h.depth
  rounds := Nat.lt_of_le_of_lt hrest.length_le h.rounds

/-- Behind an opening bracket, one reading less is enough, as there is one bracket less ahead. The
induction on depth goes by this. -/
theorem Within.inside {depth : Nat} {opening : Char} {u rest : List Char} {a : Unit}
    (hopening : opening = '[' ∨ opening = '\x7b') (hu : Symbol opening u a)
    (h : Within limits (depth + 1) (u ++ rest)) : Within limits depth rest where
  depth := by
    obtain ⟨_, _⟩ := hu
    have := h.depth
    simp only [openings, List.countP_append, List.countP_cons] at this ⊢
    rw [if_pos (by rcases hopening with rfl | rfl <;> decide)] at this
    omega
  rounds := (h.suffix (List.suffix_append u rest)).rounds

/-- Brackets with a chain inside, where the items are read one level deeper. Behind the bracket that
opens, one level less is enough. -/
theorem bracketed_reads {before after : String} {opening closing : Char}
    (hopening : opening = '[' ∨ opening = '\x7b') (hbefore : before.toList = [opening])
    (hafter : after.toList = [closing]) {P : List Char → α → Prop} {item : Rule Γ α} {depth : Nat}
    (hitem : ∀ rest, Within limits depth rest → item.Meets limits ρ rest (Reads (Padded P) rest))
    (hcs : Within limits (depth + 1) cs) :
    (Rule.bracket (punctuation before).rule (punctuation after).rule
      (item.chain (punctuation ",").rule)).Meets limits ρ cs
      (Reads (Padded (Bracketed opening closing P)) cs) := by
  refine Rule.Meets.bracket_reads (I := Padded (Chain.Spelled P (Symbol ',')))
    (punctuation_reads hbefore) (fun u rest _ heq hu => ?_)
    (fun rest _ => punctuation_reads hafter) fun u v w _ items _ hu hv hw => ?_
  · have within : Within limits depth rest := Within.inside hopening hu (heq ▸ hcs)
    have comma (rest' : List Char) : (punctuation ",").rule.Meets limits ρ rest'
        (Reads (Symbol ',') rest') := punctuation_reads rfl
    have chain := Rule.Meets.chain_reads (fun rest' hrest' => hitem rest' (within.suffix hrest'))
      (fun rest' _ => comma rest') (fun _ hnil => ?_) within.rounds
    · exact chain.mono_reads fun _ _ => Padded.spelled
    · -- A comma is some text.
      generalize hcs : ([] : List Char) = cs at hnil
      cases hnil
      simp at hcs
  · obtain ⟨hu, hu'⟩ := hu
    obtain ⟨hv, hitems, hv'⟩ := hv
    obtain ⟨hw, hw'⟩ := hw
    have bracketed : Bracketed opening closing P _ items :=
      .mk (hu'.append hv) hitems (hv'.append hw)
    have all := Padded.mk hu bracketed hw'
    simpa only [List.append_assoc, List.cons_append, List.nil_append] using all

/-! ## Values -/

/-- A key, a colon and a value. White space is read by the colon on either side of it, and by the
value behind its end. -/
theorem member_reads {value : Parser Γ Value} {depth : Nat}
    (hvalue : ∀ rest, Within limits depth rest →
      value.rule.Meets limits ρ rest (Reads (Padded Derives) rest))
    (hcs : Within limits depth cs) :
    (member value).rule.Meets limits ρ cs (Reads (Padded (Member Derives)) cs) := by
  refine Rule.Meets.bind_reads doubleQuoted_reads fun u rest key heq hu => ?_
  refine Rule.Meets.bind_reads (punctuation_reads (c := ':') rfl) fun v rest' _ heq' hv => ?_
  have suffix : rest' <:+ cs := ⟨u ++ v, by rw [heq, heq', List.append_assoc]⟩
  refine Rule.Meets.bind_reads (hvalue rest' (hcs.suffix suffix)) fun w _ x _ hx => ?_
  refine Rule.Meets.pure_reads ?_
  obtain ⟨body, meant, rfl, hwrites, rfl⟩ := hu
  have all := Padded.member (.mk hwrites hv hx)
  simpa only [List.append_assoc, List.cons_append, List.nil_append, List.append_nil] using all

/-- What stands alone has no white space around it, which is white space of length zero. Tokens are
put among padded parts so. -/
theorem Padded.alone {P : List Char → α → Prop} {u : List Char} {a : α} (h : P u a) :
    Padded P u a := by
  have all := Padded.mk .nil h .nil
  rwa [List.nil_append, List.append_nil] at all

/-- Whichever of the alternatives succeeds, it has read a value. So nothing need be known here of
why the others failed. -/
theorem valueOf_reads {value : Parser Γ Value} {depth : Nat}
    (hvalue : ∀ rest, Within limits depth rest →
      value.rule.Meets limits ρ rest (Reads (Padded Derives) rest))
    (hcs : Within limits (depth + 1) cs) :
    (valueOf value).rule.Meets limits ρ cs (Reads (Padded Derives) cs) := by
  refine Rule.Meets.oneOfLabeled_all (fun a ha => ?_) fun a rest heq => by cases heq
  suffices reads : a.2.Meets limits ρ cs (Reads (Padded Derives) cs) from
    reads.mono fun _ h _ => h
  simp only [List.map_cons, List.map_nil, List.mem_cons, List.not_mem_nil, or_false] at ha
  -- Whichever alternative it was: the order in which they are tried does not count here.
  rcases ha with rfl | rfl | rfl | rfl | rfl | rfl
  · exact Rule.Meets.map_reads decimal_reads fun _ _ h => .alone h
  · refine Rule.Meets.map_reads doubleQuoted_reads fun u s ⟨body, meant, hu, h, hs⟩ => ?_
    rw [hu, hs]
    exact .alone (.string h)
  · exact Rule.Meets.map_reads boolean_reads fun _ _ h => .alone h
  · refine Rule.Meets.map_reads (Rule.Meets.literal_reads "null") fun u s hu => ?_
    rw [hu]
    exact .alone .null
  · have item (rest : List Char) (hrest : Within limits depth rest) :=
      member_reads hvalue hrest
    refine Rule.Meets.map_reads (bracketed_reads (.inr rfl) rfl rfl item hcs) fun u members h => ?_
    obtain ⟨hbefore, h, hafter⟩ := h
    exact .mk hbefore (.object h) hafter
  · refine Rule.Meets.map_reads (bracketed_reads (.inl rfl) rfl rfl hvalue hcs) fun u items h => ?_
    obtain ⟨hbefore, h, hafter⟩ := h
    exact .mk hbefore (.array h) hafter

/-- Reading a value, with so many readings nested. -/
def readValue (limits : Limits) (ρ : Environment Γ) : Nat → Behaviour Value :=
  Behaviour.fixed fun self =>
    (valueOf (.standIn .here)).rule.run limits (ρ.extend (some self))

/-- **What is read is JSON for the value that is read**, and no reading comes to a fault or is
given up. -/
theorem readValue_reads {depth : Nat} (hcs : Within limits depth cs) :
    (readValue limits ρ depth).Meets cs (Reads (Padded Derives) cs) := by
  induction depth generalizing cs with
  | zero => exact absurd hcs.depth (Nat.not_lt_zero _)
  | succ depth ih =>
    have standIn (rest : List Char) (hrest : Within limits depth rest) :
        (Parser.standIn .here : Parser (Value :: Γ) Value).rule.Meets limits
          (ρ.extend (some (readValue limits ρ depth))) rest (Reads (Padded Derives) rest) :=
      Rule.Meets.reference rfl (ih hrest)
    exact valueOf_reads standIn hcs

end Descent.Json
