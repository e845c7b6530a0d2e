/-
Reading a source with more behind it.

The reader goes through a source once and stops each of its parts at a character: a class at
its bracket, a name at its angle bracket, a group at its parenthesis. What stands behind that
character makes no difference to what was read. For a part that reads a character beyond its
own end to see that it has ended, there has to be one.

So a group is read alike when a closing parenthesis is put behind it, with whatever follows:
nothing of it is open any more, and what would have been the end of the source is the end of
the group (`readGroup_append`).
-/
import Descent.Pattern.Reader
import Mathlib.Data.List.TakeDrop
import Mathlib.Data.Option.Basic

set_option autoImplicit false

namespace Descent

namespace Regex

open Text

/-! ## Parts that are settled -/

/-- What was read remains so with more text behind it. -/
def Settled {α : Type} (read : List Char → Option (α × List Char)) : Prop :=
  ∀ {cs a rest}, read cs = some (a, rest) → ∀ more, read (cs ++ more) = some (a, rest ++ more)

/-- What a text does not begin with, it does not with more text behind it, unless there was no
character to see. -/
theorem not_cons_append {cs : List Char} {c : Char} (hcs : cs ≠ [])
    (h : ∀ tail, cs = c :: tail → False) (more tail : List Char) :
    cs ++ more = c :: tail → False := by
  intro same
  rcases List.append_eq_cons_iff.1 same with ⟨nil, -⟩ | ⟨tail, cons, -⟩
  · exact hcs nil
  · exact h tail cons

/-- Likewise with two characters, where there have to be two of them to see that they are others. -/
theorem not_cons_cons_append {cs : List Char} {c d : Char} (hcs : 2 ≤ cs.length)
    (h : ∀ tail, cs = c :: d :: tail → False) (more tail : List Char) :
    cs ++ more = c :: d :: tail → False := by
  intro same
  rcases List.append_eq_cons_iff.1 same with ⟨rfl, -⟩ | ⟨behind, rfl, second⟩
  · simp at hcs
  · have hbehind : behind ≠ [] := by
      rintro rfl
      simp at hcs
    have hd : ∀ tail, behind = d :: tail → False := by
      rintro tail rfl
      exact h tail rfl
    exact not_cons_append hbehind hd more tail second.symm

/-- Where dropping stopped at a character, it stops at the same one with more text behind it. All
parts that end at a certain character are cut in this way. -/
theorem dropWhile_append_of_ne_nil {p : Char → Bool} {cs : List Char}
    (h : cs.dropWhile p ≠ []) (more : List Char) :
    (cs ++ more).dropWhile p = cs.dropWhile p ++ more := by
  rw [List.dropWhile_append, if_neg (by simpa using h)]

/-- A cut before a character is made there with more text behind it too. -/
theorem span_append_of_ne_nil {p : Char → Bool} {cs front back : List Char}
    (h : cs.span p = (front, back)) (hback : back ≠ []) (more : List Char) :
    (cs ++ more).span p = (front, back ++ more) := by
  rw [List.span_eq_takeWhile_dropWhile, Prod.mk.injEq] at h ⊢
  obtain ⟨rfl, rfl⟩ := h
  have shorter : (cs.takeWhile p).length ≠ cs.length := by
    intro same
    have whole := congrArg List.length (List.takeWhile_append_dropWhile (p := p) (l := cs))
    rw [List.length_append] at whole
    exact hback (List.length_eq_zero_iff.1 (by omega))
  rw [List.takeWhile_append, if_neg shorter]
  exact ⟨rfl, dropWhile_append_of_ne_nil hback more⟩

/-- A code of fixed width counts its digits, and one in braces ends at its brace. -/
theorem settled_readHex (width : Nat) : Settled (readHex width) := by
  intro cs c rest h more
  unfold readHex at h
  split at h
  · next cs =>
    split at h
    · next digits close behind hspan =>
      rw [Option.bind_eq_bind, Option.bind_eq_some_iff] at h
      obtain ⟨d, hd, h⟩ := h
      cases h
      rw [List.cons_append, readHex, span_append_of_ne_nil hspan (List.cons_ne_nil _ _)]
      simp [hd]
    · cases h
  · next hopen =>
    by_cases long : width ≤ cs.length
    · have longer : width ≤ (cs ++ more).length := by
        rw [List.length_append]
        omega
      -- There is a digit, so it is settled that no brace opens.
      have hcs : cs ≠ [] := by
        rintro rfl
        obtain rfl : width = 0 := Nat.le_zero.1 long
        cases h
      rw [readHex.eq_2 _ _ (not_cons_append hcs hopen more), List.take_append_of_le_length long,
        List.drop_append_of_le_length long]
      rw [guard, if_pos long, Option.bind_eq_bind] at h
      rw [guard, if_pos longer, Option.bind_eq_bind]
      obtain ⟨-, -, h⟩ := Option.bind_eq_some_iff.1 h
      obtain ⟨d, hd, h⟩ := Option.bind_eq_some_iff.1 h
      cases h
      rw [hd]
      rfl
    · rw [guard, if_neg long] at h
      cases h

/-- An escape is told by the letter behind its backslash, and what may follow the letter is a code.
-/
theorem settled_readEscape : Settled readEscape := by
  intro cs e rest h more
  cases cs with
  | nil => cases h
  | cons c cs =>
    rw [List.cons_append]
    unfold readEscape at h ⊢
    dsimp only at h ⊢
    split at h
    case h_17 | h_18 | h_19 =>
      rw [Option.map_eq_some_iff] at h
      obtain ⟨⟨d, behind⟩, hread, h⟩ := h
      cases h
      rw [settled_readHex _ hread more]
      rfl
    case h_20 =>
      split at h
      · next escapable =>
        cases h
        rw [if_pos escapable]
      · cases h
    all_goals
      cases h
      rfl

/-- A member of a class is a character or an escape, so it is known as soon as it is complete. -/
theorem settled_readMember : Settled readMember := by
  intro cs a rest h more
  unfold readMember at h
  split at h
  · cases h
  · next cs =>
    rw [Option.bind_eq_bind, Option.bind_eq_some_iff] at h
    obtain ⟨⟨e, behind⟩, hread, h⟩ := h
    rw [List.cons_append, readMember, settled_readEscape hread more]
    cases e with
    | char | set =>
      cases h
      rfl
    | assertion => cases h
  · next c cs hc =>
    cases h
    rw [List.cons_append, readMember.eq_3 _ _ hc]

/-- To see that there is no range, the character behind a member is looked at. So one has to be
there, and inside a class one is: its bracket at least. -/
theorem settled_readRange (o : Options) : Settled (readRange o) := by
  intro cs a rest h more
  unfold readRange at h ⊢
  obtain ⟨⟨first, cs⟩, hread, h⟩ := Option.bind_eq_some_iff.1 h
  rw [settled_readMember hread more, Option.bind_eq_bind, Option.bind_some]
  dsimp only at h ⊢
  split at h
  case h_1 => cases h
  case h_2 | h_3 =>
    cases first with
    | inl | inr =>
      cases h
      rfl
  case h_4 cs no_bracket no_dash =>
    rw [Option.bind_eq_bind, Option.bind_eq_some_iff] at h
    obtain ⟨⟨last, cs'⟩, hlast, h⟩ := h
    have hcs : cs ≠ [] := by
      rintro rfl
      cases hlast
    split
    case h_1 same => cases same
    case h_2 same =>
      exact absurd (List.cons.inj same).2 (not_cons_append hcs no_bracket more _)
    case h_3 same =>
      exact absurd (List.cons.inj same).2 (not_cons_append hcs no_dash more _)
    case h_4 same =>
      obtain rfl : cs ++ more = _ := (List.cons.inj same).2
      rw [settled_readMember hlast more, Option.bind_some]
      cases first with
      | inr => cases h
      | inl c =>
        cases last with
        | inr => cases h
        | inl d =>
          dsimp only at h ⊢
          split at h
          · next ordered =>
            cases h
            rw [if_pos ordered]
          · cases h
    case h_5 dash => exact absurd rfl (dash _)
  case h_5 not_nil _ _ no_dash =>
    have no_dash := not_cons_append not_nil no_dash more
    split
    case h_1 same => exact absurd (List.append_eq_nil_iff.1 same).1 not_nil
    case h_2 same | h_3 same | h_4 same => exact absurd same (no_dash _)
    case h_5 =>
      cases first with
      | inl | inr =>
        cases h
        rfl

/-- Reads the signs that stand for themselves at the beginning of a class. -/
def OpenClass.ofSigns (o : Options) (negated : Bool) : List Char → OpenClass × List Char
  | '-' :: cs =>
    (OpenClass.add { negated := negated } (o.charsOf '-'), cs.dropWhile (· == '-'))
  | ']' :: cs => (OpenClass.add { negated := negated } (o.charsOf ']'), cs)
  | cs => ({ negated := negated }, cs)

/-- How a class begins is read in two steps, the caret and then the signs. These two equations split
the match on both at once. -/
theorem OpenClass.ofOpening_caret (o : Options) (cs : List Char) :
    OpenClass.ofOpening o ('^' :: cs) = OpenClass.ofSigns o true cs :=
  rfl

/-- Without a caret only the second step is left, with a class that is not negated. -/
theorem OpenClass.ofOpening_of_ne (o : Options) {c : Char} (hc : c ≠ '^') (cs : List Char) :
    OpenClass.ofOpening o (c :: cs) = OpenClass.ofSigns o false (c :: cs) := by
  unfold OpenClass.ofOpening
  split
  next negated behind same =>
    split at same
    · exact absurd (by simp_all) hc
    · cases same
      rfl

/-- A row of hyphens could go on with the text behind it, unless something else stands there
already. -/
theorem OpenClass.ofSigns_append {o : Options} {negated : Bool} {cs rest : List Char}
    {k : OpenClass} (h : OpenClass.ofSigns o negated cs = (k, rest)) (hrest : rest ≠ [])
    (more : List Char) : OpenClass.ofSigns o negated (cs ++ more) = (k, rest ++ more) := by
  unfold OpenClass.ofSigns at h
  split at h
  · next cs =>
    cases h
    rw [List.cons_append, OpenClass.ofSigns, dropWhile_append_of_ne_nil hrest]
  · cases h
    rfl
  · next no_dash no_bracket =>
    cases h
    rw [OpenClass.ofSigns.eq_3 _ _ _ (not_cons_append hrest no_dash more)
      (not_cons_append hrest no_bracket more)]

/-- What begins a class is settled if something stands behind it. -/
theorem OpenClass.ofOpening_append {o : Options} {cs rest : List Char} {k : OpenClass}
    (h : OpenClass.ofOpening o cs = (k, rest)) (hrest : rest ≠ []) (more : List Char) :
    OpenClass.ofOpening o (cs ++ more) = (k, rest ++ more) := by
  cases cs with
  | nil =>
    cases h
    exact absurd rfl hrest
  | cons c cs =>
    by_cases hc : c = '^'
    · subst hc
      rw [List.cons_append, ofOpening_caret]
      rw [ofOpening_caret] at h
      exact ofSigns_append h hrest more
    · rw [List.cons_append, ofOpening_of_ne o hc]
      rw [ofOpening_of_ne o hc] at h
      exact ofSigns_append h hrest more

/-- A bracket that closes a class stays the next one with more text behind it. So whether a class
within another one goes by a name is settled once the other one can be read at all. -/
theorem settled_readToBracket : Settled readToBracket := by
  intro cs inside rest h more
  unfold readToBracket at h
  split at h
  · next inside close behind hspan =>
    cases h
    rw [readToBracket, span_append_of_ne_nil hspan (List.cons_ne_nil _ _), List.cons_append]
  · cases h

/-- A class is not read to its end without a bracket that closes it, so there is a character for its
members to stop at. -/
theorem ne_nil_of_readClass {o : Options} {fuel : Nat} {k : OpenClass} {cs rest : List Char}
    {s : CharSet} (h : readClass o fuel k cs = some (s, rest)) : cs ≠ [] := by
  rintro rfl
  cases fuel <;> cases h

/-- A member or a range is seen from two characters: behind a single one no class is closed. -/
theorem two_le_length_of_readRange {o : Options} {cs rest : List Char} {s : CharSet}
    (h : readRange o cs = some (s, rest)) : 2 ≤ cs.length := by
  match cs with
  | [] => cases h
  | [c] =>
    by_cases hc : c = '\\'
    · subst hc
      cases h
    · have member : readMember [c] = some (.inl c, []) := readMember.eq_3 c [] hc
      rw [readRange, member] at h
      cases h
  | _ :: _ :: _ => exact Nat.le_add_left 2 _

/-- A class is settled, and more rounds do no harm. -/
theorem readClass_append {o : Options} {fuel : Nat} {k : OpenClass} {cs rest : List Char}
    {s : CharSet} (h : readClass o fuel k cs = some (s, rest)) {rounds : Nat}
    (hrounds : fuel ≤ rounds) (more : List Char) :
    readClass o rounds k (cs ++ more) = some (s, rest ++ more) := by
  induction fuel generalizing k cs s rest rounds with
  | zero => cases h
  | succ fuel ih =>
    obtain ⟨rounds, rfl⟩ : ∃ n, rounds = n + 1 := ⟨rounds - 1, by omega⟩
    replace hrounds : fuel ≤ rounds := Nat.le_of_succ_le_succ hrounds
    unfold readClass at h
    split at h
    case h_1 => cases h
    case h_2 cs =>
      cases h
      rw [List.cons_append, readClass]
    case h_3 cs =>
      rw [Option.bind_eq_bind, Option.bind_eq_some_iff] at h
      obtain ⟨⟨inside, behind⟩, hbracket, h⟩ := h
      rw [List.cons_append, readClass, settled_readToBracket hbracket more, Option.bind_eq_bind,
        Option.bind_some]
      dsimp only at h ⊢
      cases hname : namedClass? o inside with
      | some part =>
        rw [hname] at h
        exact ih h hrounds
      | none =>
        rw [hname] at h
        dsimp only at h ⊢
        generalize hopening : OpenClass.ofOpening o cs = opening at h
        obtain ⟨inner, behind⟩ := opening
        rw [Option.bind_eq_bind, Option.bind_eq_some_iff] at h
        obtain ⟨⟨part, cs'⟩, hpart, h⟩ := h
        rw [OpenClass.ofOpening_append hopening (ne_nil_of_readClass hpart) more]
        dsimp only
        rw [ih hpart hrounds, Option.bind_eq_bind, Option.bind_some]
        exact ih h hrounds
    case h_4 | h_5 | h_6 =>
      rw [List.cons_append, List.cons_append, readClass]
      exact ih h hrounds
    case h_7 not_nil no_close no_open no_inter no_diff no_either =>
      rw [Option.bind_eq_bind, Option.bind_eq_some_iff] at h
      obtain ⟨⟨part, cs'⟩, hpart, h⟩ := h
      -- Whether an operator stands here is seen from two characters, and there are two.
      have long : 2 ≤ cs.length := two_le_length_of_readRange hpart
      rw [readClass.eq_8 _ _ _ _ (fun nil => not_nil (List.append_eq_nil_iff.1 nil).1)
        (not_cons_append not_nil no_close more) (not_cons_append not_nil no_open more)
        (not_cons_cons_append long no_inter more) (not_cons_cons_append long no_diff more)
        (not_cons_cons_append long no_either more), settled_readRange o hpart more]
      exact ih h hrounds

/-! ## Options, names and counts -/

/-- The letters of options are read up to the colon or the parenthesis that ends them. By induction
on the text, since letters seen before decide what may come. -/
theorem Options.read_append {o o' : Options} {seen cs rest : List Char} {on dangling any : Bool}
    (h : o.read seen on dangling cs = some (o', any, rest)) (more : List Char) :
    o.read seen on dangling (cs ++ more) = some (o', any, rest ++ more) := by
  induction cs generalizing o seen on dangling with
  | nil => cases h
  | cons c cs ih =>
    rw [List.cons_append]
    unfold Options.read at h ⊢
    split at h
    · next closes =>
      rw [if_pos closes]
      split at h
      · cases h
      · next closed =>
        cases h
        rw [if_neg closed]
        rfl
    · next goes_on =>
      rw [if_neg goes_on]
      split at h
      · next minus =>
        rw [if_pos minus]
        split at h
        · next first =>
          rw [if_pos first]
          exact ih h
        · cases h
      · next letter =>
        rw [if_neg letter]
        split at h
        · cases h
        · next once =>
          rw [Option.bind_eq_bind, Option.bind_eq_some_iff] at h
          obtain ⟨o₁, hset, h⟩ := h
          rw [if_neg once, hset, Option.bind_eq_bind, Option.bind_some]
          exact ih h

/-- A name ends at its angle bracket, and is checked only up to there. -/
theorem settled_readName : Settled readName := by
  intro cs name rest h more
  unfold readName at h
  split at h
  · next c name close behind hspan =>
    rw [readName, span_append_of_ne_nil hspan (List.cons_ne_nil _ _), List.cons_append]
    dsimp only
    split at h
    · next valid =>
      cases h
      rw [if_pos valid]
    · cases h
  · cases h

/-- A number is settled if something stands behind it. At the end of the text, a further digit could
be put behind it. -/
theorem readNumber_append {cs rest : List Char} {n : Nat} (h : readNumber cs = some (n, rest))
    (hrest : rest ≠ []) (more : List Char) :
    readNumber (cs ++ more) = some (n, rest ++ more) := by
  generalize hcut : (cs.dropWhile isBlank).span Char.isDigit = cut
  obtain ⟨digits, behind⟩ := cut
  unfold readNumber at h ⊢
  rw [hcut] at h
  dsimp only at h
  split at h
  · cases h
  · next small =>
    cases h
    have hbehind : behind ≠ [] := by
      rintro rfl
      exact hrest rfl
    have hcs : cs.dropWhile isBlank ≠ [] := by
      intro nil
      rw [nil] at hcut
      cases hcut
      exact hbehind rfl
    rw [dropWhile_append_of_ne_nil hcs, span_append_of_ne_nil hcut hbehind]
    dsimp only
    rw [if_neg small, dropWhile_append_of_ne_nil hrest]

/-- Each of the two numbers in a count has a comma or a brace behind it, so neither of them could go
on with the text that is added. -/
theorem readCount_append {cs rest : List Char} {least : Nat} {most : Option Nat}
    (h : readCount cs = some (least, most, rest)) (more : List Char) :
    readCount (cs ++ more) = some (least, most, rest ++ more) := by
  unfold readCount at h ⊢
  rw [Option.bind_eq_bind, Option.bind_eq_some_iff] at h
  obtain ⟨⟨n, behind⟩, hnumber, h⟩ := h
  have hbehind : behind ≠ [] := by
    rintro rfl
    cases h
  rw [readNumber_append hnumber hbehind more, Option.bind_eq_bind, Option.bind_some]
  dsimp only at h ⊢
  split at h
  · cases h
    rfl
  · cases h
    rfl
  · next cs not_close =>
    rw [Option.bind_eq_some_iff] at h
    obtain ⟨⟨m, behind⟩, hnumber, h⟩ := h
    have hcs : cs ≠ [] := by
      rintro rfl
      cases hnumber
    have hbehind : behind ≠ [] := by
      rintro rfl
      cases h
    split
    case h_1 same => cases same
    case h_2 same =>
      exact absurd (List.cons.inj same).2 (not_cons_append hcs not_close more _)
    case h_3 same =>
      obtain rfl : cs ++ more = _ := (List.cons.inj same).2
      rw [readNumber_append hnumber hbehind more, Option.bind_some]
      dsimp only at h ⊢
      split at h
      · split at h
        · next ordered =>
          cases h
          simp [ordered]
        · cases h
      · cases h
    case h_4 comma => exact absurd rfl (comma _)
  · cases h

/-- What an opening parenthesis begins is settled if something stands behind the parenthesis. -/
theorem readOpening_append {o : Options} {cs rest : List Char} {opening : Opening}
    (h : readOpening o cs = some (opening, rest)) (hcs : cs ≠ []) (more : List Char) :
    readOpening o (cs ++ more) = some (opening, rest ++ more) := by
  unfold readOpening at h
  split at h
  case h_1 | h_2 => cases h
  case h_3 cs no_equals no_bang =>
    rw [Option.map_eq_some_iff] at h
    obtain ⟨⟨name, behind⟩, hname, h⟩ := h
    have hcs : cs ≠ [] := by
      rintro rfl
      cases hname
    cases h
    rw [List.cons_append, List.cons_append, readOpening.eq_3 _ _
      (not_cons_append hcs no_equals more) (not_cons_append hcs no_bang more),
      settled_readName hname more, Option.map_some]
  case h_4 cs =>
    rw [Option.map_eq_some_iff] at h
    obtain ⟨⟨name, behind⟩, hname, h⟩ := h
    cases h
    rw [List.cons_append, List.cons_append, List.cons_append, readOpening.eq_4,
      settled_readName hname more, Option.map_some]
  case h_5 cs _ _ no_name _ =>
    rw [Option.bind_eq_bind, Option.bind_eq_some_iff] at h
    obtain ⟨⟨o', any, behind⟩, hread, h⟩ := h
    have hcs : cs ≠ [] := by
      rintro rfl
      cases hread
    have no_letter : ∀ tail, cs = 'P' :: tail → False := by
      rintro tail rfl
      cases hread
    have no_name := not_cons_append hcs no_name more
    rw [List.cons_append, readOpening.eq_5 _ _ (fun _ => no_name _) (fun _ => no_name _) no_name
      (fun _ => not_cons_append hcs no_letter more _), Options.read_append hread more,
      Option.bind_eq_bind, Option.bind_some]
    split at h
    · next same =>
      cases h
      cases same
      rfl
    · next no_colon same =>
      cases h
      cases same
      simp
    · cases h
  case h_6 _ _ _ _ no_mark =>
    cases h
    have no_mark := not_cons_append hcs no_mark more
    rw [readOpening.eq_6 _ _ (fun _ => no_mark _) (fun _ => no_mark _) (fun _ => no_mark _)
      (fun _ => no_mark _) no_mark]

/-! ## Groups -/

/-- The group with its last item repeated, if that can be. -/
def OpenGroup.again? (g : OpenGroup) (least : Nat) (most : Option Nat) (isLazy : Bool) :
    Option OpenGroup :=
  match g.repeatable, g.items with
  | true, r :: items =>
    some { g with items := r.times least most (isLazy == g.options.swapGreed) :: items }
  | _, _ => none

/-- The mark behind a sign of repetition makes it take as little as it can. These two equations
split the match on the mark from whether there is an item to repeat. -/
theorem OpenGroup.repeatLast_mark (g : OpenGroup) (least : Nat) (most : Option Nat)
    (cs : List Char) :
    g.repeatLast least most ('?' :: cs) = (g.again? least most true).map fun g => (g, cs) := by
  rcases g with ⟨_, _, _ | ⟨r, items⟩, _ | _⟩ <;> rfl

/-- Without a mark nothing more is taken off the text. -/
theorem OpenGroup.repeatLast_no_mark (g : OpenGroup) (least : Nat) (most : Option Nat)
    {cs : List Char} (h : ∀ tail, cs = '?' :: tail → False) :
    g.repeatLast least most cs = (g.again? least most false).map fun g => (g, cs) := by
  unfold repeatLast
  split
  next isLazy behind same =>
    split at same
    · exact absurd rfl (h _)
    · cases same
      rcases g with ⟨_, _, _ | ⟨r, items⟩, _ | _⟩ <;> rfl

/-- At the end of the text no mark is seen, and with a parenthesis put behind it neither is one.
This is where it matters which character is added. -/
theorem OpenGroup.repeatLast_append {g g' : OpenGroup} {least : Nat} {most : Option Nat}
    {cs rest : List Char} (h : g.repeatLast least most cs = some (g', rest)) (more : List Char) :
    g.repeatLast least most (cs ++ ')' :: more) = some (g', rest ++ ')' :: more) := by
  by_cases mark : ∃ tail, cs = '?' :: tail
  · obtain ⟨tail, rfl⟩ := mark
    rw [repeatLast_mark, Option.map_eq_some_iff] at h
    obtain ⟨g₁, hagain, h⟩ := h
    cases h
    rw [List.cons_append, repeatLast_mark, hagain, Option.map_some]
  · have no_mark : ∀ tail, cs = '?' :: tail → False := fun tail same => mark ⟨tail, same⟩
    have no_mark' : ∀ tail, cs ++ ')' :: more = '?' :: tail → False := by
      by_cases hcs : cs = []
      · subst hcs
        rintro tail same
        cases same
      · exact not_cons_append hcs no_mark _
    rw [repeatLast_no_mark g least most no_mark, Option.map_eq_some_iff] at h
    obtain ⟨g₁, hagain, h⟩ := h
    cases h
    rw [repeatLast_no_mark g least most no_mark', hagain, Option.map_some]

/-- **A group is read alike with a closing parenthesis behind it**, and more rounds do no harm. -/
theorem readGroup_append {fuel : Nat} {g : OpenGroup} {names names' : List (List Char)}
    {cs rest : List Char} {r : Regex} (h : readGroup fuel g names cs = some (r, names', rest))
    {rounds : Nat} (hrounds : fuel ≤ rounds) (more : List Char) :
    readGroup rounds g names (cs ++ ')' :: more) = some (r, names', rest ++ ')' :: more) := by
  induction fuel generalizing g names names' cs rest r rounds with
  | zero => cases h
  | succ fuel ih =>
    obtain ⟨rounds, rfl⟩ : ∃ n, rounds = n + 1 := ⟨rounds - 1, by omega⟩
    replace hrounds : fuel ≤ rounds := Nat.le_of_succ_le_succ hrounds
    cases cs with
    | nil =>
      cases h
      rfl
    | cons c cs =>
      rw [List.cons_append]
      unfold readGroup at h ⊢
      dsimp only at h ⊢
      split at h
      case h_1 =>
        cases h
        rfl
      case h_2 => exact ih h hrounds
      -- An opening parenthesis: it is not the last character, or its group would stay open.
      case h_3 =>
        have hcs : cs ≠ [] := by
          rintro rfl
          cases fuel <;> cases h
        rw [Option.bind_eq_bind, Option.bind_eq_some_iff] at h
        obtain ⟨⟨opening, behind⟩, hopening, h⟩ := h
        rw [readOpening_append hopening hcs, Option.bind_eq_bind, Option.bind_some]
        cases opening with
        | options o => exact ih h hrounds
        | group o numbered name =>
          dsimp only at h ⊢
          rw [Option.bind_eq_bind, Option.bind_eq_some_iff] at h
          obtain ⟨_, hguard, h⟩ := h
          rw [Option.bind_eq_bind, Option.bind_eq_some_iff] at h
          obtain ⟨⟨inner, names₁, behind'⟩, hinner, h⟩ := h
          rw [hguard, ih hinner hrounds, Option.bind_eq_bind, Option.bind_some,
            Option.bind_eq_bind, Option.bind_some]
          split at h
          · next same =>
            cases same
            exact ih h hrounds
          · cases h
      -- A class has rounds of its own, by the length of what stands behind its opening.
      case h_4 =>
        generalize hopening : OpenClass.ofOpening g.options cs = opening at h
        obtain ⟨k, behind⟩ := opening
        rw [Option.bind_eq_bind, Option.bind_eq_some_iff] at h
        obtain ⟨⟨s, behind'⟩, hclass, h⟩ := h
        have longer : behind.length + 1 ≤ (behind ++ ')' :: more).length + 1 := by
          rw [List.length_append]
          omega
        rw [OpenClass.ofOpening_append hopening (ne_nil_of_readClass hclass)]
        dsimp only
        rw [readClass_append hclass longer, Option.bind_eq_bind, Option.bind_some]
        exact ih h hrounds
      case h_5 =>
        rw [Option.bind_eq_bind, Option.bind_eq_some_iff] at h
        obtain ⟨⟨e, behind⟩, hread, h⟩ := h
        rw [settled_readEscape hread, Option.bind_eq_bind, Option.bind_some]
        exact ih h hrounds
      case h_6 | h_7 | h_8 => exact ih h hrounds
      -- Behind a sign of repetition a question mark counts, and a parenthesis is none.
      case h_9 | h_10 | h_11 =>
        rw [Option.bind_eq_bind, Option.bind_eq_some_iff] at h
        obtain ⟨⟨g', behind⟩, hlast, h⟩ := h
        rw [OpenGroup.repeatLast_append hlast, Option.bind_eq_bind, Option.bind_some]
        exact ih h hrounds
      case h_12 =>
        rw [Option.bind_eq_bind, Option.bind_eq_some_iff] at h
        obtain ⟨⟨least, most, behind⟩, hcount, h⟩ := h
        rw [Option.bind_eq_bind, Option.bind_eq_some_iff] at h
        obtain ⟨⟨g', behind'⟩, hlast, h⟩ := h
        rw [readCount_append hcount, Option.bind_eq_bind, Option.bind_some]
        dsimp only
        rw [OpenGroup.repeatLast_append hlast, Option.bind_eq_bind, Option.bind_some]
        exact ih h hrounds
      case h_13 => exact ih h hrounds

end Regex

end Descent
