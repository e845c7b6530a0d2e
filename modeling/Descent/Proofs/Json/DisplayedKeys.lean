/-
The keys of objects in printed texts.

The keys of the objects in a JSON text without white space can be read off it without knowing
what it is the text of: a key is a string with a colon right behind it, and belongs to the
innermost brace that is open there (`objectKeys`). Of a printed value that gives the keys of the
objects in it, each in the order of its members (`objectKeys_render`): the escapes keep the scan
inside a string up to its end, no number has a quote or a brace in it, and a string that is no
key stands before a comma or a closing bracket.

As the members of an object increase by their keys and texts are in the order of their bytes, so
do the bytes of the keys that are read off.
-/
import Descent.Proofs.ByteOrder
import Descent.Proofs.Json.RoundTrip

set_option autoImplicit false

namespace Descent.Json

open Text

/-! ## Reading keys off a text -/

/-- Where a scan is. -/
inductive KeyScan.Mode where
  /-- In no string. -/
  | outside
  /-- In a string, of which so much has been read. -/
  | inside (content : List Char)
  /-- Behind a backslash in a string. -/
  | escape (content : List Char)
  /-- Right behind a string. -/
  | behind (content : List Char)

/-- What a scan has read: the keys so far of each object that is open, the innermost first, and
the keys of each object that has been closed. -/
structure KeyScan where
  mode : KeyScan.Mode := .outside
  opened : List (List String) := []
  closed : List (List String) := []

namespace KeyScan

/-- The innermost object has these keys more. -/
def noteKeys (more : List String) : List (List String) → List (List String)
  | [] => []
  | keys :: opened => (keys ++ more) :: opened

/-- The next character, which is in no string. -/
def mark (s : KeyScan) (c : Char) : KeyScan :=
  match c with
  | '"' => { s with mode := .inside [] }
  | '\x7b' => { s with mode := .outside, opened := [] :: s.opened }
  | '\x7d' =>
    { mode := .outside, opened := s.opened.tail, closed := s.closed ++ s.opened.head?.toList }
  | _ => { s with mode := .outside }

/-- The next character. -/
def step (s : KeyScan) (c : Char) : KeyScan :=
  match s.mode with
  | .outside => s.mark c
  | .inside content =>
    if c = '"' then { s with mode := .behind content }
    else if c = '\\' then { s with mode := .escape content }
    else { s with mode := .inside (content ++ [c]) }
  | .escape content => { s with mode := .inside (content ++ [Token.escaped c]) }
  | .behind content =>
    if c = ':' then
      { s with mode := .outside, opened := noteKeys [String.ofList content] s.opened }
    else s.mark c

/-- All of a text. -/
def run (s : KeyScan) (cs : List Char) : KeyScan :=
  cs.foldl step s

end KeyScan

/-- The keys of each object in a JSON text without white space, in the order in which the objects
end. -/
def objectKeys (text : String) : List (List String) :=
  (KeyScan.run {} text.toList).closed

/-! ## The keys of a tree -/

namespace Tree

mutual

/-- The keys of each object in the tree, the inner objects first. -/
def keyLists : Tree → List (List String)
  | null | bool _ | number _ | string _ => []
  | array items => allKeyLists items
  | object members => membersKeyLists members ++ [members.map Prod.fst]

/-- The same of each tree in a list. -/
def allKeyLists : List Tree → List (List String)
  | [] => []
  | t :: ts => t.keyLists ++ allKeyLists ts

/-- The same of each member of an object. -/
def membersKeyLists : List (String × Tree) → List (List String)
  | [] => []
  | (_, t) :: members => t.keyLists ++ membersKeyLists members

end

mutual

/-- In an ordered tree the keys of every object increase, also of those inside others. By recursion
on the tree, with the two lists below. -/
theorem increasing_keyLists : (t : Tree) → t.Ordered → ∀ keys ∈ t.keyLists, keys.Pairwise (· < ·)
  | .null, _ | .bool _, _ | .number _, _ | .string _, _ => by simp [keyLists]
  | .array items, h => increasing_allKeyLists items h
  | .object members, h => by
    rw [keyLists]
    exact List.forall_mem_append.2
      ⟨increasing_membersKeyLists members h.2, List.forall_mem_singleton.2 h.1⟩

/-- The same of the objects in the items of an array. -/
theorem increasing_allKeyLists : (ts : List Tree) → AllOrdered ts →
    ∀ keys ∈ allKeyLists ts, keys.Pairwise (· < ·)
  | [], _ => by simp [allKeyLists]
  | t :: ts, h =>
    List.forall_mem_append.2 ⟨increasing_keyLists t h.1, increasing_allKeyLists ts h.2⟩

/-- The same of the objects in the values of members. The members' own keys are the matter of the
object around them. -/
theorem increasing_membersKeyLists : (members : List (String × Tree)) → MembersOrdered members →
    ∀ keys ∈ membersKeyLists members, keys.Pairwise (· < ·)
  | [], _ => by simp [membersKeyLists]
  | (_, t) :: members, h =>
    List.forall_mem_append.2 ⟨increasing_keyLists t h.1, increasing_membersKeyLists members h.2⟩

end

end Tree

/-! ## Scanning printed texts -/

namespace KeyScan

variable {s : KeyScan} {content : List Char}

/-- A text may be scanned in parts, each from the state in which the one before left the scan. -/
theorem run_append (s : KeyScan) (cs ds : List Char) : s.run (cs ++ ds) = (s.run cs).run ds :=
  List.foldl_append

/-- The first character and then the others, as is needed where punctuation stands before a part. -/
theorem run_cons (s : KeyScan) (c : Char) (cs : List Char) : s.run (c :: cs) = (s.step c).run cs :=
  rfl

/-- In no string, and not in the middle of anything else. -/
def Mode.IsSettled : Mode → Prop
  | outside | behind _ => True
  | inside _ | escape _ => False

/-- Outside strings, only quotes and braces count. -/
def isPlain (c : Char) : Bool :=
  c != '"' && c != '\x7b' && c != '\x7d'

/-- Texts without quotes and braces go by unseen, if no string is open: the words, and numbers too.
-/
theorem run_plain {cs : List Char} (h : cs.all isPlain = true) (outside : s.mode = .outside) :
    s.run cs = s := by
  induction cs with
  | nil => rfl
  | cons c cs ih =>
    rw [List.all_cons, Bool.and_eq_true] at h
    have same : s.step c = s := by
      rw [step, outside]
      dsimp only
      rw [mark.eq_def]
      split
      · exact absurd h.1 (by decide)
      · exact absurd h.1 (by decide)
      · exact absurd h.1 (by decide)
      · rw [← outside]
    rw [run_cons, same, ih h.2]

/-- **An escape is undone** as it is scanned, and an unescaped character is taken as it is. In
neither case does the string end. -/
theorem run_stringChar (inside : s.mode = .inside content) (c : Char) :
    s.run (Tree.stringChar c) = { s with mode := .inside (content ++ [c]) } := by
  obtain ⟨_, opened, closed⟩ := s
  cases inside
  unfold Tree.stringChar
  split
  case h_7 hquote hbackslash _ _ _ _ =>
    show (if c = '"' then _ else if c = '\\' then _ else _) = _
    rw [if_neg hquote, if_neg hbackslash]
  all_goals rfl

/-- So the content of a string comes back character by character, quotes and braces in it included.
-/
theorem run_flatMap_stringChar (inside : s.mode = .inside content) (cs : List Char) :
    s.run (cs.flatMap Tree.stringChar) = { s with mode := .inside (content ++ cs) } := by
  induction cs generalizing s content with
  | nil =>
    rw [List.append_nil, ← inside]
    rfl
  | cons c cs ih =>
    rw [List.flatMap_cons, run_append, run_stringChar inside, ih rfl, List.append_assoc]
    rfl

/-- Behind a string, its content is known, with the escapes undone. Whether it is a key is still
open there. -/
theorem run_stringText (outside : s.mode = .outside) (text : String) :
    s.run (Tree.stringText text).toList = { s with mode := .behind text.toList } := by
  obtain ⟨_, opened, closed⟩ := s
  cases outside
  rw [toList_stringText, run_cons, run_append]
  have opens : step ⟨.outside, opened, closed⟩ '"' = ⟨.inside [], opened, closed⟩ := rfl
  rw [opens, run_flatMap_stringChar rfl]
  rfl

/-- Behind a string any character but a colon is scanned as outside, so a string that is no key
leaves no trace. -/
theorem step_of_settled (h : s.mode.IsSettled) {c : Char} (hc : c ≠ ':') : s.step c = s.mark c := by
  rw [step]
  cases hmode : s.mode with
  | outside => rfl
  | behind content => exact if_neg hc
  | inside | escape =>
    rw [hmode] at h
    exact h.elim

/-- To note nothing changes nothing, whether or not an object is open. -/
@[simp] theorem noteKeys_nil (opened : List (List String)) : noteKeys [] opened = opened := by
  cases opened <;> simp [noteKeys]

/-- Keys may be noted in two portions, as the members before a comma and those behind it are. -/
theorem noteKeys_append (keys keys' : List String) (opened : List (List String)) :
    noteKeys keys' (noteKeys keys opened) = noteKeys (keys ++ keys') opened := by
  cases opened <;> simp [noteKeys]

/-- The scan of such a text notes these keys of the innermost object, and these of objects that it
closes. -/
def Notes (cs : List Char) (keys : List String) (closed : List (List String)) : Prop :=
  ∀ s : KeyScan, s.mode = .outside → ∃ mode : Mode, mode.IsSettled ∧
    s.run cs = ⟨mode, noteKeys keys s.opened, s.closed ++ closed⟩

/-- Words are scanned without a note, since nothing in them counts. -/
theorem notes_plain {cs : List Char} (h : cs.all isPlain = true) : Notes cs [] [] := by
  intro s outside
  refine ⟨.outside, trivial, ?_⟩
  rw [run_plain h outside, noteKeys_nil, List.append_nil, ← outside]

/-- A string by itself is no key. What it may become is decided by the character behind it. -/
theorem notes_stringText (text : String) : Notes (Tree.stringText text).toList [] [] := by
  intro s outside
  exact ⟨.behind text.toList, trivial, by simp [run_stringText outside]⟩

/-- A string with a colon behind it is a key. -/
theorem Notes.member {cs : List Char} {closed : List (List String)} (h : Notes cs [] closed)
    (key : String) : Notes ((Tree.stringText key).toList ++ ':' :: cs) [key] closed := by
  intro s outside
  have colon : step ⟨.behind key.toList, s.opened, s.closed⟩ ':' =
      ⟨.outside, noteKeys [key] s.opened, s.closed⟩ := by
    simp [step]
  rw [run_append, run_stringText outside, run_cons, colon]
  obtain ⟨mode, settled, run⟩ := h ⟨.outside, noteKeys [key] s.opened, s.closed⟩ rfl
  exact ⟨mode, settled, by rw [run, noteKeys_nil]⟩

/-- A comma ends what is before it. A string in front of it turns out to be no key, and the notes of
both sides add up. -/
theorem Notes.comma {cs ds : List Char} {keys keys' : List String}
    {closed closed' : List (List String)} (h : Notes cs keys closed) (h' : Notes ds keys' closed') :
    Notes (cs ++ ',' :: ds) (keys ++ keys') (closed ++ closed') := by
  intro s outside
  obtain ⟨mode, settled, run⟩ := h s outside
  have comma := step_of_settled (s := ⟨mode, noteKeys keys s.opened, s.closed ++ closed⟩) settled
    (c := ',') (by decide)
  obtain ⟨mode', settled', run'⟩ := h' ⟨.outside, noteKeys keys s.opened, s.closed ++ closed⟩ rfl
  refine ⟨mode', settled', ?_⟩
  rw [run_append, run, run_cons, comma]
  show KeyScan.run ⟨.outside, noteKeys keys s.opened, s.closed ++ closed⟩ ds = _
  rw [run', noteKeys_append, List.append_assoc]

/-- An array has no keys of its own. The objects inside it are closed before its bracket. -/
theorem Notes.brackets {cs : List Char} {closed : List (List String)} (h : Notes cs [] closed) :
    Notes ('[' :: (cs ++ [']'])) [] closed := by
  intro s outside
  obtain ⟨mode, settled, run⟩ := h s outside
  have opens : s.step '[' = s := show s.run ['['] = s from run_plain (by decide) outside
  have closes := step_of_settled (s := ⟨mode, noteKeys [] s.opened, s.closed ++ closed⟩) settled
    (c := ']') (by decide)
  refine ⟨.outside, trivial, ?_⟩
  rw [run_cons, opens, run_append, run, run_cons, closes]
  rfl

/-- The brace that closes an object ends its keys. They are put behind those of the objects inside,
which have been closed before. -/
theorem Notes.braces {cs : List Char} {keys : List String} {closed : List (List String)}
    (h : Notes cs keys closed) : Notes ('\x7b' :: (cs ++ ['\x7d'])) [] (closed ++ [keys]) := by
  intro s outside
  have opens : s.step '\x7b' = ⟨.outside, [] :: s.opened, s.closed⟩ := by
    simp [step, outside, mark]
  obtain ⟨mode, settled, run⟩ := h ⟨.outside, [] :: s.opened, s.closed⟩ rfl
  have closes := step_of_settled (s := ⟨mode, keys :: s.opened, s.closed ++ closed⟩) settled
    (c := '\x7d') (by decide)
  refine ⟨.outside, trivial, ?_⟩
  rw [run_cons, opens, run_append, run]
  show KeyScan.step ⟨mode, keys :: s.opened, s.closed ++ closed⟩ '\x7d' = _
  rw [closes, noteKeys_nil]
  simp [mark]

/-- No number has a quote or a brace in it. -/
theorem notes_number (x : Binary64) : Notes x.render.toList [] [] := by
  refine notes_plain ?_
  by_cases finite : x.isFinite = true
  · obtain ⟨p, valid, htext, -⟩ := Binary64.exists_parts_of_isFinite finite
    rw [← htext, List.all_eq_true]
    refine valid.forall_mem_text ?_ (fun c hc => ?_) (by decide) ?_
    · rintro c (rfl | rfl) <;> decide
    · have other {d : Char} (hd : d.isDigit = false) : (c != d) = true := by
        rw [bne_iff_ne]
        rintro rfl
        exact absurd hc (Bool.eq_false_iff.1 hd)
      rw [isPlain, other (by decide), other (by decide), other (by decide)]
      rfl
    · rintro c (rfl | rfl) <;> decide
  · rw [Binary64.render]
    dsimp only
    rw [if_neg finite]
    cases x.isNaN <;> cases x.isNegative <;> decide

end KeyScan

open KeyScan

mutual

/-- **A printed tree is scanned as what it is**, by recursion on it: its objects are closed in the
order in which `keyLists` lists them. -/
theorem notes_render : (t : Tree) → Notes t.render.toList [] t.keyLists
  | .null => notes_plain (by decide)
  | .bool true => notes_plain (by decide)
  | .bool false => notes_plain (by decide)
  | .number x => notes_number x
  | .string s => notes_stringText s
  | .array items => by simpa [Tree.render, Tree.keyLists] using (notes_renderAll items).brackets
  | .object members => by
    simpa [Tree.render, Tree.keyLists] using (notes_renderMembers members).braces

/-- The items of an array are joined by commas, and each of them is scanned as it would be alone. -/
theorem notes_renderAll : (ts : List Tree) →
    Notes ([','].intercalate ((Tree.renderAll ts).map String.toList)) [] (Tree.allKeyLists ts)
  | [] => notes_plain (by simp [Tree.renderAll])
  | [t] => by simpa [Tree.renderAll, Tree.allKeyLists] using notes_render t
  | t :: u :: ts => by
    simpa [Tree.renderAll, Tree.allKeyLists] using
      (notes_render t).comma (notes_renderAll (u :: ts))

/-- The members of an object leave their keys with the innermost object, which is the one that they
belong to. -/
theorem notes_renderMembers : (members : List (String × Tree)) →
    Notes ([','].intercalate ((Tree.renderMembers members).map String.toList))
      (members.map Prod.fst) (Tree.membersKeyLists members)
  | [] => notes_plain (by simp [Tree.renderMembers])
  | [(key, t)] => by
    simpa [Tree.renderMembers, Tree.membersKeyLists] using (notes_render t).member key
  | (key, t) :: m :: members => by
    simpa [Tree.renderMembers, Tree.membersKeyLists] using
      ((notes_render t).member key).comma (notes_renderMembers (m :: members))

end

/-- **The keys that are read off a printed value** are those of the objects in it, in their
order. -/
theorem objectKeys_render (v : Value) : objectKeys v.render = v.tree.keyLists := by
  obtain ⟨mode, -, run⟩ := notes_render v.tree {} rfl
  rw [objectKeys, Value.render, run]
  rfl

/-- A text that is not printed may have them in any order. Of two objects, the inner one ends
first. -/
example : objectKeys "[\x7b\"b\":\"x\",\"a\\\"\":\x7b\"c\":1\x7d\x7d]" = [["c"], ["b", "a\""]] := by
  decide

/-- So their bytes increase, and no key is there twice. -/
theorem objectKeys_increasing (v : Value) : ∀ keys ∈ objectKeys v.render,
    keys.Pairwise (fun k l => k.toUTF8.data.toList < l.toUTF8.data.toList) ∧ keys.Nodup := by
  rw [objectKeys_render]
  intro keys hkeys
  have increasing := Tree.increasing_keyLists v.tree v.ordered keys hkeys
  exact ⟨increasing.imp (lt_iff_utf8_lt _ _).1, increasing.imp String.ne_of_lt⟩

end Descent.Json
