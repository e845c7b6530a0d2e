/-
Printed values and standard JSON.

The standard grammar of JSON is narrower than the one that is read here in what stands between
quotes: a control character has to be escaped there. It is wider in its escapes, as any code unit
may be given by four hexadecimal digits. The grammar is laid down here once more by itself, with
the characters left open that may stand for themselves (`IsText`).

What is printed of a value with finite numbers is a text of that grammar if all characters may
stand for themselves: no quote is left without a backslash, and all escapes are defined. But only
four control characters are escaped. So it is standard JSON just when no other occurs in a string or
in a key (`isText_render_iff`).
-/
import Descent.Proofs.Json.RoundTrip

set_option autoImplicit false

namespace Descent.Json

/-! ## The standard grammar -/

namespace Standard

/-- White space between tokens. -/
def Space (w : List Char) : Prop :=
  ∀ c ∈ w, c ∈ [' ', '\t', '\n', '\r']

/-- A hexadecimal digit. -/
def IsHex (c : Char) : Prop :=
  c.isDigit = true ∨ ('a' ≤ c ∧ c ≤ 'f') ∨ ('A' ≤ c ∧ c ≤ 'F')

/-- A character that need not be escaped, unless it is a quote or a backslash. -/
def IsPlain (c : Char) : Prop :=
  0x20 ≤ c.toNat

/-- The characters that may follow a backslash. -/
def letters : List Char :=
  ['"', '\\', '/', 'b', 'f', 'n', 'r', 't']

/-- What stands between quotes, where `raw` says which characters may stand for themselves. -/
inductive Content (raw : Char → Prop) : List Char → Prop
  | nil : Content raw []
  | plain {c : Char} {cs : List Char} (hraw : raw c) (hquote : c ≠ '"') (hbackslash : c ≠ '\\')
      (h : Content raw cs) : Content raw (c :: cs)
  | escape {c : Char} {cs : List Char} (hc : c ∈ letters)
      (h : Content raw cs) : Content raw ('\\' :: c :: cs)
  | code {a b c d : Char} {cs : List Char} (hex : ∀ e ∈ [a, b, c, d], IsHex e)
      (h : Content raw cs) : Content raw ('\\' :: 'u' :: a :: b :: c :: d :: cs)

/-- A text in quotes. -/
inductive Quoted (raw : Char → Prop) : List Char → Prop
  | mk {cs : List Char} (h : Content raw cs) : Quoted raw ('"' :: (cs ++ ['"']))

/-- A number: a minus sign perhaps, digits without a leading zero, a fraction perhaps, and a power
of ten perhaps. -/
inductive Number : List Char → Prop
  | mk {p : Numeral.Parts} (valid : p.Valid Char.isDigit) (minus : p.sign ≠ some '+') :
      Number p.text

/-- Things with commas between them, at least one, with white space around each. -/
inductive Listed (P : List Char → Prop) : List Char → Prop
  | last {w cs w' : List Char} (before : Space w) (h : P cs) (after : Space w') :
      Listed P (w ++ (cs ++ w'))
  | cons {w cs w' ds : List Char} (before : Space w) (h : P cs) (after : Space w')
      (others : Listed P ds) : Listed P (w ++ (cs ++ (w' ++ ',' :: ds)))

/-- Such things in brackets, or nothing but white space. -/
inductive Enclosed (opening closing : Char) (P : List Char → Prop) : List Char → Prop
  | empty {w : List Char} (space : Space w) :
      Enclosed opening closing P (opening :: (w ++ [closing]))
  | listed {cs : List Char} (h : Listed P cs) :
      Enclosed opening closing P (opening :: (cs ++ [closing]))

/-- A key, a colon and a value, where `V` says what values are. -/
inductive Member (raw : Char → Prop) (V : List Char → Prop) : List Char → Prop
  | mk {key w w' cs : List Char} (hkey : Quoted raw key) (before : Space w) (after : Space w')
      (h : V cs) : Member raw V (key ++ (w ++ ':' :: (w' ++ cs)))

/-- A value. -/
inductive IsValue (raw : Char → Prop) : List Char → Prop
  | null : IsValue raw "null".toList
  | bool (b : Bool) : IsValue raw (if b then "true".toList else "false".toList)
  | number {cs : List Char} (h : Number cs) : IsValue raw cs
  | string {cs : List Char} (h : Quoted raw cs) : IsValue raw cs
  | array {cs : List Char} (h : Enclosed '[' ']' (IsValue raw) cs) : IsValue raw cs
  | object {cs : List Char} (h : Enclosed '\x7b' '\x7d' (Member raw (IsValue raw)) cs) :
      IsValue raw cs

/-- A whole text: a value, with white space around it. -/
inductive IsText (raw : Char → Prop) : List Char → Prop
  | mk {w cs w' : List Char} (before : Space w) (h : IsValue raw cs) (after : Space w') :
      IsText raw (w ++ (cs ++ w'))

/-! ## The characters of a standard text -/

variable {raw : Char → Prop} {P : List Char → Prop} {cs ds : List Char} {c opening closing : Char}

/-- The character may stand for itself, or is one of those that the grammar is made of. -/
def Occurs (raw : Char → Prop) (c : Char) : Prop :=
  raw c ∨ 0x20 ≤ c.toNat ∨ c ∈ ['\t', '\n', '\r']

/-- A character that the standard lets stand unescaped may occur whatever `raw` says, which covers
all punctuation, digits and words of the grammar. -/
theorem occurs_of_le (h : 0x20 ≤ c.toNat) : Occurs raw c :=
  .inr (.inl h)

/-- The same for a fixed text: that none of its characters is a control character is found by
running through it. -/
theorem occurs_of_all (h : cs.all (0x20 ≤ ·.toNat) = true) : ∀ c ∈ cs, Occurs raw c :=
  fun c hc => occurs_of_le (of_decide_eq_true (List.all_eq_true.1 h c hc))

/-- Nothing is white space too, so what is printed, with no space anywhere, is a case of what is
written with space. -/
theorem Space.nil : Space [] := by
  simp [Space]

/-- The blanks of the grammar are what the third case of `Occurs` is for: three of them are control
characters. -/
theorem Space.occurs (h : Space cs) : ∀ c ∈ cs, Occurs raw c := by
  intro c hc
  rcases List.mem_cons.1 (h c hc) with rfl | other
  · exact occurs_of_le (by decide)
  · exact .inr (.inr other)

/-- Digits lie above the control characters, so a number can hold none of these, nor can the code of
an escape. -/
theorem le_of_isDigit (h : c.isDigit = true) : 0x20 ≤ c.toNat :=
  Nat.le_trans (by decide : 0x20 ≤ '0'.toNat) (Char.isDigit_iff_toNat.1 h).1

/-- Hexadecimal digits as well. An escape by its code may mean a control character, but is not
written with one. -/
theorem IsHex.le (h : IsHex c) : 0x20 ≤ c.toNat := by
  rcases h with digit | ⟨lower, -⟩ | ⟨upper, -⟩
  · exact le_of_isDigit digit
  · exact Nat.le_trans (by decide : 0x20 ≤ 'a'.toNat) lower
  · exact Nat.le_trans (by decide : 0x20 ≤ 'A'.toNat) upper

/-- Between quotes a control character can only come by `raw`: escapes are written with a backslash,
letters and hexadecimal digits. -/
theorem Content.occurs (h : Content raw cs) : ∀ c ∈ cs, Occurs raw c := by
  induction h with
  | nil => simp
  | plain hraw _ _ _ ih => exact List.forall_mem_cons.2 ⟨.inl hraw, ih⟩
  | @escape c cs hc _ ih =>
    have letter : Occurs raw c := occurs_of_all (by decide) c hc
    exact List.forall_mem_cons.2 ⟨occurs_of_le (by decide), List.forall_mem_cons.2 ⟨letter, ih⟩⟩
  | @code a b c d cs hex _ ih =>
    have mark : ∀ e ∈ ['\\', 'u'], Occurs raw e := occurs_of_all (by decide)
    have digits : ∀ e ∈ [a, b, c, d], Occurs raw e := fun e he => occurs_of_le (hex e he).le
    exact List.forall_mem_append.2 ⟨mark, List.forall_mem_append.2 ⟨digits, ih⟩⟩

/-- The quotes themselves are no control characters, so they add nothing to what may occur. -/
theorem Quoted.occurs (h : Quoted raw cs) : ∀ c ∈ cs, Occurs raw c := by
  obtain ⟨content⟩ := h
  have quote : Occurs raw '"' := occurs_of_le (by decide)
  exact List.forall_mem_cons.2 ⟨quote,
    List.forall_mem_append.2 ⟨content.occurs, List.forall_mem_singleton.2 quote⟩⟩

/-- In a number nothing occurs but digits, signs, a point and the letter of the power, whatever
`raw` allows. -/
theorem Number.occurs (h : Number cs) : ∀ c ∈ cs, Occurs raw c := by
  obtain ⟨valid, -⟩ := h
  refine valid.forall_mem_text (fun c hc => ?_) (fun c hc => occurs_of_le (le_of_isDigit hc))
    (occurs_of_le (by decide)) (fun c hc => ?_)
  · rcases hc with rfl | rfl <;> exact occurs_of_le (by decide)
  · rcases hc with rfl | rfl <;> exact occurs_of_le (by decide)

/-- A list holds its parts, commas and space. The parts are asked about only up to the length of the
list, which is what an induction on length can give. -/
theorem Listed.occurs (h : Listed P cs)
    (parts : ∀ ds, ds.length ≤ cs.length → P ds → ∀ c ∈ ds, Occurs raw c) :
    ∀ c ∈ cs, Occurs raw c := by
  induction h with
  | @last w cs w' before part after =>
    have inside := parts cs (by simp only [List.length_append]; omega) part
    exact List.forall_mem_append.2 ⟨before.occurs,
      List.forall_mem_append.2 ⟨inside, after.occurs⟩⟩
  | @cons w cs w' ds before part after _ ih =>
    have inside := parts cs (by simp only [List.length_append]; omega) part
    have others := ih fun us hus =>
      parts us (by simp only [List.length_append, List.length_cons]; omega)
    exact List.forall_mem_append.2 ⟨before.occurs, List.forall_mem_append.2 ⟨inside,
      List.forall_mem_append.2 ⟨after.occurs,
        List.forall_mem_cons.2 ⟨occurs_of_le (by decide), others⟩⟩⟩⟩

/-- What stands in brackets is shorter than the text with them. -/
theorem Enclosed.occurs (h : Enclosed opening closing P cs) (hopening : 0x20 ≤ opening.toNat)
    (hclosing : 0x20 ≤ closing.toNat)
    (parts : ∀ ds, ds.length < cs.length → P ds → ∀ c ∈ ds, Occurs raw c) :
    ∀ c ∈ cs, Occurs raw c := by
  have brackets {us : List Char} (inside : ∀ c ∈ us, Occurs raw c) :
      ∀ c ∈ opening :: (us ++ [closing]), Occurs raw c :=
    List.forall_mem_cons.2 ⟨occurs_of_le hopening, List.forall_mem_append.2
      ⟨inside, List.forall_mem_singleton.2 (occurs_of_le hclosing)⟩⟩
  cases h with
  | empty space => exact brackets space.occurs
  | @listed cs listed =>
    refine brackets (listed.occurs fun ds hds => parts ds ?_)
    simp only [List.length_cons, List.length_append]
    omega

/-- A member holds its key, a colon, space and its value. As for lists, the value is no longer than
the whole. -/
theorem Member.occurs (h : Member raw P cs)
    (value : ∀ ds, ds.length ≤ cs.length → P ds → ∀ c ∈ ds, Occurs raw c) :
    ∀ c ∈ cs, Occurs raw c := by
  obtain @⟨key, w, w', cs, quoted, before, after, part⟩ := h
  have inside := value cs (by simp only [List.length_append, List.length_cons]; omega) part
  exact List.forall_mem_append.2 ⟨quoted.occurs, List.forall_mem_append.2 ⟨before.occurs,
    List.forall_mem_cons.2 ⟨occurs_of_le (by decide),
      List.forall_mem_append.2 ⟨after.occurs, inside⟩⟩⟩⟩

/-- By induction on the length of the text, since a value in brackets comes out of a list of texts
and not of a derivation that is at hand. -/
theorem IsValue.occurs (h : IsValue raw cs) : ∀ c ∈ cs, Occurs raw c := by
  -- The values inside are shorter texts.
  induction hn : cs.length using Nat.strong_induction_on generalizing cs with
  | _ n ih =>
    subst hn
    cases h with
    | null => exact occurs_of_all (by decide)
    | bool b => cases b <;> exact occurs_of_all (by decide)
    | number number => exact number.occurs
    | string quoted => exact quoted.occurs
    | array array =>
      exact array.occurs (by decide) (by decide) fun ds hds item => ih ds.length hds item rfl
    | object object =>
      refine object.occurs (by decide) (by decide) fun ds hds member => ?_
      exact member.occurs fun us hus value => ih us.length (Nat.lt_of_le_of_lt hus hds) value rfl

/-- **Other characters do not occur** in a standard text. This is what refutes that a text with a
raw control character is standard. -/
theorem IsText.occurs (h : IsText raw cs) : ∀ c ∈ cs, Occurs raw c := by
  obtain ⟨before, value, after⟩ := h
  exact List.forall_mem_append.2 ⟨before.occurs,
    List.forall_mem_append.2 ⟨value.occurs, after.occurs⟩⟩

end Standard

/-! ## The strings of a value -/

namespace Tree

mutual

/-- The strings in the tree, keys as well. -/
def strings : Tree → List String
  | null | bool _ | number _ => []
  | string s => [s]
  | array items => allStrings items
  | object members => membersStrings members

/-- The same of each tree in a list. -/
def allStrings : List Tree → List String
  | [] => []
  | t :: ts => t.strings ++ allStrings ts

/-- The same of each member of an object. -/
def membersStrings : List (String × Tree) → List String
  | [] => []
  | (key, t) :: members => key :: (t.strings ++ membersStrings members)

end

/-- The characters that are printed with a backslash before them. -/
def escapes : List Char :=
  ['"', '\\', '\n', '\r', '\t', '\x08']

/-- All others stand for themselves, the other control characters among them. Here is what the
standard does not allow. -/
theorem stringChar_of_notMem {c : Char} (h : c ∉ escapes) : stringChar c = [c] := by
  unfold stringChar
  split
  case h_7 => rfl
  all_goals exact absurd (by decide) h

/-- Joining texts does not break them up, so what stands in one of them stands in the whole. Arrays
and objects are printed by joining. -/
theorem infix_intercalate {c : Char} {text : List Char} {texts : List (List Char)}
    (h : text ∈ texts) : text <:+: [c].intercalate texts := by
  cases texts with
  | nil => cases h
  | cons head tail =>
    rw [intercalate_cons]
    rcases List.mem_cons.1 h with rfl | h
    · exact (List.prefix_append text _).isInfix
    · have behind : c :: text <:+: tail.flatMap (c :: ·) :=
        List.infix_of_mem_flatten (List.mem_map_of_mem h)
      exact (List.suffix_cons c text).isInfix.trans (behind.trans (List.suffix_append _ _).isInfix)

/-- Each of the texts that are joined and enclosed is there. -/
theorem infix_enclosed (opening closing : String) {text : String} {texts : List String}
    (h : text ∈ texts) :
    text.toList <:+: (opening ++ String.intercalate "," texts ++ closing).toList := by
  have joined := infix_intercalate (c := ',') (List.mem_map_of_mem (f := String.toList) h)
  refine joined.trans ⟨opening.toList, closing.toList, ?_⟩
  simp

mutual

/-- **Each string is printed** somewhere, in quotes. By recursion on the tree, since what is inside
is printed within what is around it. -/
theorem stringText_infix_render : (t : Tree) → ∀ s ∈ t.strings,
    (stringText s).toList <:+: t.render.toList
  | .null, s, hs | .bool _, s, hs | .number _, s, hs => by simp [strings] at hs
  | .string _, s, hs => by
    obtain rfl := List.mem_singleton.1 hs
    exact List.infix_refl _
  | .array items, s, hs => by
    rw [strings] at hs
    obtain ⟨text, htext, hinfix⟩ := stringText_infix_renderAll items s hs
    exact hinfix.trans (infix_enclosed "[" "]" htext)
  | .object members, s, hs => by
    rw [strings] at hs
    obtain ⟨text, htext, hinfix⟩ := stringText_infix_renderMembers members s hs
    exact hinfix.trans (infix_enclosed "\x7b" "\x7d" htext)

/-- The same of each item of an array, which is printed before the items are joined. -/
theorem stringText_infix_renderAll : (ts : List Tree) → ∀ s ∈ allStrings ts,
    ∃ text ∈ renderAll ts, (stringText s).toList <:+: text.toList
  | [], s, hs => by simp [allStrings] at hs
  | t :: ts, s, hs => by
    rw [allStrings, List.mem_append] at hs
    rw [renderAll]
    rcases hs with hs | hs
    · exact ⟨_, List.mem_cons_self, stringText_infix_render t s hs⟩
    · obtain ⟨text, htext, hinfix⟩ := stringText_infix_renderAll ts s hs
      exact ⟨text, List.mem_cons_of_mem _ htext, hinfix⟩

/-- The same of each member of an object. Here the string may also be the key, which stands at the
front of what is printed of the member. -/
theorem stringText_infix_renderMembers : (members : List (String × Tree)) →
    ∀ s ∈ membersStrings members, ∃ text ∈ renderMembers members,
      (stringText s).toList <:+: text.toList
  | [], s, hs => by simp [membersStrings] at hs
  | (key, t) :: members, s, hs => by
    rw [membersStrings, List.mem_cons, List.mem_append] at hs
    rw [renderMembers]
    rcases hs with rfl | hs | hs
    · refine ⟨_, List.mem_cons_self, ?_⟩
      rw [String.append_assoc, String.toList_append]
      exact (List.prefix_append _ _).isInfix
    · refine ⟨_, List.mem_cons_self, (stringText_infix_render t s hs).trans ?_⟩
      rw [String.toList_append]
      exact (List.suffix_append _ _).isInfix
    · obtain ⟨text, htext, hinfix⟩ := stringText_infix_renderMembers members s hs
      exact ⟨text, List.mem_cons_of_mem _ htext, hinfix⟩

end

/-- A character that is not escaped is printed as it is. -/
theorem mem_render {t : Tree} {s : String} (hs : s ∈ t.strings) {c : Char} (hc : c ∈ s.toList)
    (h : c ∉ escapes) : c ∈ t.render.toList := by
  have printed : c ∈ (stringText s).toList := by
    have itself : c ∈ s.toList.flatMap stringChar :=
      List.mem_flatMap.2 ⟨c, hc, by rw [stringChar_of_notMem h]; exact List.mem_singleton_self c⟩
    rw [toList_stringText]
    exact List.mem_cons_of_mem _ (List.mem_append_left _ itself)
  exact (stringText_infix_render t s hs).subset printed

end Tree

/-! ## What is printed is standard -/

namespace Standard

variable {raw : Char → Prop} {P : List Char → Prop} {cs ds : List Char} {c : Char}

/-- Contents may be put together, for no escape is left open at the end of one. So a string can be
followed character by character. -/
theorem Content.append (h : Content raw cs) (h' : Content raw ds) : Content raw (cs ++ ds) := by
  induction h with
  | nil => exact h'
  | plain hraw hquote hbackslash _ ih => exact .plain hraw hquote hbackslash ih
  | escape hc _ ih => exact .escape hc ih
  | code hex _ ih => exact .code hex ih

/-- What is printed of one character is either an escape that the grammar has, or the character
itself, and only then is `raw` asked. -/
theorem content_stringChar (h : c ∉ Tree.escapes → raw c) : Content raw (Tree.stringChar c) := by
  by_cases escaped : c ∈ Tree.escapes
  · have defined : ∀ c ∈ Tree.escapes, ∃ e ∈ letters, Tree.stringChar c = ['\\', e] := by
      simp [Tree.escapes, letters, Tree.stringChar]
    obtain ⟨e, he, heq⟩ := defined c escaped
    rw [heq]
    exact .escape he .nil
  · have hquote : c ≠ '"' := by
      rintro rfl
      exact escaped (by decide)
    have hbackslash : c ≠ '\\' := by
      rintro rfl
      exact escaped (by decide)
    rw [Tree.stringChar_of_notMem escaped]
    exact .plain (h escaped) hquote hbackslash .nil

/-- Put together over all characters of a string, by the two lemmas above. -/
theorem content_flatMap_stringChar (h : ∀ c ∈ cs, c ∉ Tree.escapes → raw c) :
    Content raw (cs.flatMap Tree.stringChar) := by
  induction cs with
  | nil => exact .nil
  | cons c cs ih =>
    obtain ⟨first, others⟩ := List.forall_mem_cons.1 h
    exact (content_stringChar first).append (ih others)

/-- A string is printed in quotes, and no quote within it ends it early: those are escaped. -/
theorem quoted_stringText {s : String} (h : ∀ c ∈ s.toList, c ∉ Tree.escapes → raw c) :
    Quoted raw (Tree.stringText s).toList := by
  rw [toList_stringText]
  exact .mk (content_flatMap_stringChar h)

/-- A number is printed without a plus sign, which the standard does not have, and otherwise both
have the same numerals. -/
theorem number_render {x : Binary64} (finite : x.isFinite = true) : Number x.render.toList := by
  rw [← Binary64.text_parts finite]
  refine .mk (Binary64.valid_parts finite) ?_
  rw [Binary64.parts, Numeral.Parts.sign_ofDecimal, Binary64.sign]
  cases x.isNegative <;> decide

/-- Texts joined by commas are a list of the grammar, with no space written. A list is never empty,
so the first text is named apart. -/
theorem listed_intercalate {text : List Char} {texts : List (List Char)}
    (h : ∀ us ∈ text :: texts, P us) : Listed P ([','].intercalate (text :: texts)) := by
  rw [intercalate_cons]
  induction texts generalizing text with
  | nil => exact .last Space.nil (h text List.mem_cons_self) Space.nil
  | cons text' texts ih =>
    obtain ⟨first, others⟩ := List.forall_mem_cons.1 h
    exact .cons Space.nil first Space.nil (ih others)

/-- In brackets the empty list is allowed as well: then nothing is printed between them. -/
theorem enclosed_intercalate (opening closing : Char) {texts : List (List Char)}
    (h : ∀ us ∈ texts, P us) :
    Enclosed opening closing P (opening :: ([','].intercalate texts ++ [closing])) := by
  cases texts with
  | nil => exact .empty Space.nil
  | cons text texts => exact .listed (listed_intercalate h)

/-- A member as it is printed, with no space about its colon. -/
theorem Quoted.member {key : List Char} (hkey : Quoted raw key) (h : P cs) :
    Member raw P (key ++ ':' :: cs) :=
  .mk hkey Space.nil Space.nil h

mutual

/-- A tree is printed as a value, if the characters that are not escaped in it may stand for
themselves. -/
theorem isValue_render : (t : Tree) → t.Finite →
    (∀ s ∈ t.strings, ∀ c ∈ s.toList, c ∉ Tree.escapes → raw c) → IsValue raw t.render.toList
  | .null, _, _ => .null
  | .bool true, _, _ => .bool true
  | .bool false, _, _ => .bool false
  | .number _, finite, _ => .number (number_render finite)
  | .string s, _, h => .string (quoted_stringText (h s (List.mem_singleton_self s)))
  | .array ts, finite, h => by
    have items := enclosed_intercalate '[' ']' (isValue_renderAll ts finite h)
    exact .array (by simpa [Tree.render] using items)
  | .object members, finite, h => by
    have object := enclosed_intercalate '\x7b' '\x7d' (isMember_renderMembers members finite h)
    exact .object (by simpa [Tree.render] using object)

/-- For the items of an array, the same for each. It goes by recursion on the list together with
`isValue_render`. -/
theorem isValue_renderAll : (ts : List Tree) → Tree.AllFinite ts →
    (∀ s ∈ Tree.allStrings ts, ∀ c ∈ s.toList, c ∉ Tree.escapes → raw c) →
    ∀ us ∈ (Tree.renderAll ts).map String.toList, IsValue raw us
  | [], _, _ => by simp [Tree.renderAll]
  | t :: ts, finite, h => by
    rw [Tree.allStrings, List.forall_mem_append] at h
    exact List.forall_mem_cons.2
      ⟨isValue_render t finite.1 h.1, isValue_renderAll ts finite.2 h.2⟩

/-- For the members of an object. Of a member the key is asked about as well, as it is a string like
the others. -/
theorem isMember_renderMembers : (members : List (String × Tree)) → Tree.MembersFinite members →
    (∀ s ∈ Tree.membersStrings members, ∀ c ∈ s.toList, c ∉ Tree.escapes → raw c) →
    ∀ us ∈ (Tree.renderMembers members).map String.toList, Member raw (IsValue raw) us
  | [], _, _ => by simp [Tree.renderMembers]
  | (key, t) :: members, finite, h => by
    rw [Tree.membersStrings, List.forall_mem_cons, List.forall_mem_append] at h
    have member := (quoted_stringText h.1).member (isValue_render t finite.1 h.2.1)
    refine List.forall_mem_cons.2 ⟨?_, isMember_renderMembers members finite.2 h.2.2⟩
    simpa using member

end

/-- A value is printed with no space around it, so its text is a whole text as soon as its tree is
printed as a value. -/
theorem isText_render {v : Value} (finite : v.Finite)
    (h : ∀ s ∈ v.tree.strings, ∀ c ∈ s.toList, c ∉ Tree.escapes → raw c) :
    IsText raw v.render.toList := by
  have text := IsText.mk Space.nil (isValue_render v.tree finite h) Space.nil
  rwa [List.append_nil, List.nil_append] at text

/-- **What is printed of a value** with finite numbers is a text of the standard grammar, except
that characters of any kind may stand for themselves in it. It is standard JSON just when the
strings and keys have no other control characters than the four that are escaped. -/
theorem isText_render_iff {v : Value} (finite : v.Finite) :
    IsText (fun _ => True) v.render.toList ∧
      (IsText IsPlain v.render.toList ↔ ∀ s ∈ v.tree.strings, ∀ c ∈ s.toList,
        c.toNat < 0x20 → c ∈ ['\x08', '\t', '\n', '\r']) := by
  refine ⟨isText_render finite fun _ _ _ _ _ => trivial, fun text s hs c hc control => ?_,
    fun h => isText_render finite fun s hs c hc unescaped => ?_⟩
  · by_cases escaped : c ∈ Tree.escapes
    · have controls : ∀ c ∈ Tree.escapes, c.toNat < 0x20 → c ∈ ['\x08', '\t', '\n', '\r'] := by
        simp [Tree.escapes]
      exact controls c escaped control
    -- It is printed as it is, and so the grammar has to know it.
    · rcases text.occurs c (Tree.mem_render hs hc escaped) with plain | plain | space
      · exact absurd control (Nat.not_lt.2 plain)
      · exact absurd control (Nat.not_lt.2 plain)
      · exact List.mem_cons_of_mem _ space
  · have controls : ∀ c ∈ ['\x08', '\t', '\n', '\r'], c ∈ Tree.escapes := by
      simp [Tree.escapes]
    exact Nat.le_of_not_lt fun control => unescaped (controls c (h s hs c hc control))

/-- Quotes, backspaces and tabs are escaped, in a key as well. -/
theorem isText_render_escaped :
    let v := Value.object [("a\"\n", .array [.number ⟨0xBFE0000000000000⟩, .string "\x08\té"])]
    v.Finite ∧ IsText IsPlain v.render.toList := by
  intro v
  have number : (Binary64.mk 0xBFE0000000000000).isFinite = true := by decide
  have finite : v.Finite := ⟨⟨number, trivial, trivial⟩, trivial⟩
  have strings : v.tree.strings = ["a\"\n", "\x08\té"] := by decide
  have escaped : ∀ s ∈ v.tree.strings, ∀ c ∈ s.toList,
      c.toNat < 0x20 → c ∈ ['\x08', '\t', '\n', '\r'] := by
    rw [strings]
    simp
  exact ⟨finite, (isText_render_iff finite).2.2 escaped⟩

/-- A control character without an escape of its own is printed as it is, and then the text is not
standard JSON. -/
theorem not_isText_render_control :
    let v := Value.string "\x01"
    v.Finite ∧ v.render = "\"\x01\"" ∧ ¬ IsText IsPlain v.render.toList := by
  refine ⟨trivial, by decide, fun text => ?_⟩
  rcases text.occurs '\x01' (by decide) with plain | plain | space
  · exact absurd plain (by decide : ¬ 0x20 ≤ '\x01'.toNat)
  · exact absurd plain (by decide)
  · exact absurd space (by decide)

end Standard

end Descent.Json
