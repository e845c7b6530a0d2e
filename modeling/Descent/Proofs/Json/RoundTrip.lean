/-
Printing and then reading.

What is printed of an ordered tree with finite numbers is JSON, and derives that tree
(`derives_render`): the escapes are those that quoted texts have, items and members are a chain
with commas, and inserting members whose keys increase changes nothing. By the grammar alone it
is then read back, in white space of any kind.

In the other direction the grammar has no other numbers than finite ones (`Derives.finite`), so
whatever is read can be printed and read again.
-/
import Descent.Proofs.Json.Parsing
import Descent.Proofs.Number.Positional

set_option autoImplicit false

namespace Descent.Json

open Text

/-! ## Finite trees -/

namespace Tree

mutual

/-- All numbers in the tree are finite. -/
def Finite : Tree → Prop
  | null | bool _ | string _ => True
  | number x => x.isFinite = true
  | array items => AllFinite items
  | object members => MembersFinite members

/-- The same of each tree in a list. -/
def AllFinite : List Tree → Prop
  | [] => True
  | t :: ts => t.Finite ∧ AllFinite ts

/-- The same of each member of an object. -/
def MembersFinite : List (String × Tree) → Prop
  | [] => True
  | (_, t) :: members => t.Finite ∧ MembersFinite members

end

/-- A member is put in or put in the place of another one, and in both cases only finite numbers
come in. -/
theorem MembersFinite.insert {members : List (String × Tree)} (h : MembersFinite members)
    (key : String) {t : Tree} (ht : t.Finite) : MembersFinite (insert key t members) := by
  induction members with
  | nil => exact ⟨ht, trivial⟩
  | cons m members ih =>
    obtain ⟨k, u⟩ := m
    rw [Tree.insert]
    split
    · exact ⟨ht, h⟩
    · split
      · exact ⟨ht, h.2⟩
      · exact ⟨h.1, ih h.2⟩

/-- A member with the greatest key is inserted last. So members in order, inserted one by one, form
the list that they came in. -/
theorem insert_eq_append {key : String} {members : List (String × Tree)}
    (h : ∀ k ∈ members.map Prod.fst, k < key) (t : Tree) :
    insert key t members = members ++ [(key, t)] := by
  induction members with
  | nil => rfl
  | cons m members ih =>
    obtain ⟨k, u⟩ := m
    have hk : k < key := h k List.mem_cons_self
    rw [insert, if_neg (String.lt_asymm hk), if_neg (String.ne_of_lt hk).symm,
      ih fun l hl => h l (List.mem_cons_of_mem k hl), List.cons_append]

end Tree

namespace Value

/-- All numbers in the value are finite. -/
def Finite (v : Value) : Prop :=
  v.tree.Finite

/-- A value is its tree, as that the tree is ordered is a proof. So values are compared by their
trees. -/
theorem eq_of_tree_eq {v w : Value} (h : v.tree = w.tree) : v = w := by
  cases v
  cases w
  cases h
  rfl

/-- An array is finite if its items are. The other constructors of a value have nothing inside them,
except for objects. -/
theorem finite_array {items : List Value} (h : ∀ v ∈ items, v.Finite) : (array items).Finite := by
  show Tree.AllFinite (items.map tree)
  induction items with
  | nil => exact trivial
  | cons v items ih =>
    exact ⟨h v List.mem_cons_self, ih fun w hw => h w (List.mem_cons_of_mem v hw)⟩

/-- Members are inserted from left to right into those that are there, so the statement is about any
to begin with. -/
theorem finite_foldl_insert {members : List (String × Value)} (h : ∀ m ∈ members, m.2.Finite)
    {ms : List (String × Tree)} (hms : Tree.MembersFinite ms) :
    Tree.MembersFinite (members.foldl (fun ms (key, v) => Tree.insert key v.tree ms) ms) := by
  induction members generalizing ms with
  | nil => exact hms
  | cons m members ih =>
    exact ih (fun n hn => h n (List.mem_cons_of_mem m hn)) (hms.insert m.1 (h m List.mem_cons_self))

/-- The same of an object, which begins with no members. -/
theorem finite_object {members : List (String × Value)} (h : ∀ m ∈ members, m.2.Finite) :
    (object members).Finite :=
  finite_foldl_insert h trivial

/-- If all keys increase, those before included, each member has the greatest key when its turn
comes, and goes to the end. -/
theorem foldl_insert_eq_append {members : List (String × Value)} {ms : List (String × Tree)}
    (h : Tree.Increasing (ms ++ members.map fun m => (m.1, m.2.tree))) :
    members.foldl (fun ms (key, v) => Tree.insert key v.tree ms) ms =
      ms ++ members.map fun m => (m.1, m.2.tree) := by
  induction members generalizing ms with
  | nil => simp
  | cons m members ih =>
    obtain ⟨key, v⟩ := m
    have below : ∀ k ∈ ms.map Prod.fst, k < key := by
      rw [Tree.Increasing, List.map_append, List.pairwise_append] at h
      exact fun k hk => h.2.2 k hk key List.mem_cons_self
    have last := Tree.insert_eq_append below v.tree
    simp only [List.foldl_cons, last]
    rw [ih (by simpa using h)]
    simp

/-- Members whose keys increase are inserted in the order they stand in. -/
theorem memberTrees_eq {members : List (String × Value)}
    (h : Tree.Increasing (members.map fun m => (m.1, m.2.tree))) :
    memberTrees members = members.map fun m => (m.1, m.2.tree) :=
  foldl_insert_eq_append h

end Value

/-! ## What is read is finite -/

/-- Each part of a row is written somewhere in it. -/
theorem exists_of_mem_row {α : Type} {P : List Char → α → Prop} {cs : List Char} {as : List α}
    (h : Row P cs as) {a : α} (ha : a ∈ as) : ∃ u, u.length ≤ cs.length ∧ P u a := by
  induction h with
  | nil => cases ha
  | @cons u cs b as hb _ ih =>
    rw [List.length_append]
    rcases List.mem_cons.1 ha with rfl | ha
    · exact ⟨u, Nat.le_add_right _ _, hb⟩
    · obtain ⟨v, hv, ha⟩ := ih ha
      exact ⟨v, by omega, ha⟩

/-- So is each term of a chain. Only the length of what it is written as is kept, for inductions on
the length. -/
theorem exists_of_mem_terms {α : Type} {P : List Char → α → Prop} {S : List Char → Unit → Prop}
    {cs : List Char} {items : Chain α Unit} (h : Chain.Spelled P S cs items) {a : α}
    (ha : a ∈ items.terms) : ∃ u, u.length ≤ cs.length ∧ P u a := by
  cases h with
  | empty => cases ha
  | @links u cs head tail hhead htail =>
    rw [List.length_append]
    rcases List.mem_cons.1 ha with rfl | ha
    · exact ⟨u, Nat.le_add_right _ _, hhead⟩
    · obtain ⟨⟨_, b⟩, hlink, rfl⟩ := List.mem_map.1 ha
      obtain ⟨_, hle, @⟨v, w, _, _, _, hw⟩⟩ := exists_of_mem_row htail hlink
      rw [List.length_append] at hle
      exact ⟨w, by omega, hw⟩

/-- What stands in brackets is shorter than the text with them. -/
theorem Bracketed.exists_of_mem {α : Type} {opening closing : Char} {P : List Char → α → Prop}
    {cs : List Char} {items : Chain α Unit} (h : Bracketed opening closing P cs items) {a : α}
    (ha : a ∈ items.terms) : ∃ u, u.length < cs.length ∧ P u a := by
  obtain @⟨w, cs, w', _, _, hitems, _⟩ := h
  obtain ⟨u, hu, ha⟩ := exists_of_mem_terms hitems ha
  refine ⟨u, ?_, ha⟩
  simp only [List.length_cons, List.length_append]
  omega

/-- **JSON derives finite numbers only.** By induction on the length of the text: what is in
brackets is written in a shorter one. -/
theorem Derives.finite {cs : List Char} {v : Value} (h : Derives cs v) : v.Finite := by
  -- The values inside are written in shorter texts.
  induction hn : cs.length using Nat.strong_induction_on generalizing cs v with
  | _ n ih =>
    subst hn
    cases h with
    | number valid finite => exact finite
    | string | bool | null => exact trivial
    | array h =>
      refine Value.finite_array fun v hv => ?_
      obtain ⟨u, hu, hv⟩ := h.exists_of_mem hv
      exact ih u.length hu hv rfl
    | object h =>
      refine Value.finite_object fun m hm => ?_
      obtain ⟨_, hu, @⟨key, _, colon, u, _, _, _, hv⟩⟩ := h.exists_of_mem hm
      refine ih u.length ?_ hv rfl
      simp only [List.length_cons, List.length_append] at hu
      omega

/-- The white space about a whole text holds no numbers. -/
theorem DerivesText.finite {cs : List Char} {v : Value} (h : DerivesText cs v) : v.Finite := by
  obtain ⟨_, hderives, _⟩ := h
  exact hderives.finite

/-! ## What is printed is JSON -/

/-- Each character is written as a reader takes it: its escape means it, or it is none of the two
that may not stand for themselves. -/
theorem writes_stringChar (c : Char) : Token.Writes '"' (Tree.stringChar c) [c] := by
  unfold Tree.stringChar
  split
  case h_7 hquote hbackslash _ _ _ _ => exact .plain hquote hbackslash .nil
  all_goals exact .escape rfl .nil

/-- So a whole string is written, with the meaning that it has. -/
theorem writes_flatMap_stringChar (cs : List Char) :
    Token.Writes '"' (cs.flatMap Tree.stringChar) cs := by
  induction cs with
  | nil => exact .nil
  | cons c cs ih =>
    rw [List.flatMap_cons]
    exact (writes_stringChar c).append ih

/-- The printed string as a list of characters, in the form that the grammar has for quoted texts.
-/
theorem toList_stringText (s : String) :
    (Tree.stringText s).toList = '"' :: (s.toList.flatMap Tree.stringChar ++ ['"']) := by
  simp [Tree.stringText]

/-- A symbol may be written with no white space about it, as it is printed. -/
theorem symbol_alone (c : Char) : Symbol c [c] () :=
  Symbol.mk .nil .nil

/-- Joining puts the separator before each text but the first, so what is joined reads as a head and
links. -/
theorem intercalate_cons (c : Char) (text : List Char) (texts : List (List Char)) :
    [c].intercalate (text :: texts) = text ++ texts.flatMap (c :: ·) := by
  induction texts generalizing text with
  | nil => simp
  | cons text' texts ih => simp [ih text']

/-- Texts joined by a character are a chain, with this character alone for the separators and no
white space. -/
theorem exists_spelled_intercalate {α : Type} {P : List Char → α → Prop} {c : Char}
    {texts : List (List Char)} {as : List α} (h : List.Forall₂ P texts as) :
    ∃ items, Chain.Spelled P (Symbol c) ([c].intercalate texts) items ∧ items.terms = as := by
  have row {texts : List (List Char)} {as : List α} (h : List.Forall₂ P texts as) :
      Row (Chain.Link P (Symbol c)) (texts.flatMap (c :: ·)) (as.map fun a => ((), a)) := by
    induction h with
    | nil => exact .nil
    | cons ha _ ih => exact .cons (.mk (symbol_alone c) ha) ih
  cases h with
  | nil => exact ⟨.empty, .empty, rfl⟩
  | @cons text a texts as ha has =>
    refine ⟨.links a (as.map fun a => ((), a)), ?_, by simp [Chain.terms]⟩
    rw [intercalate_cons]
    exact .links ha (row has)

/-- In brackets, with a comma between the texts, they are a bracketed chain of what they derive. -/
theorem bracketed_of_forall₂ {α : Type} {P : List Char → α → Prop} {opening closing : Char}
    {texts : List (List Char)} {as : List α} (h : List.Forall₂ P texts as) :
    ∃ items, Bracketed opening closing P
      (opening :: ([','].intercalate texts ++ [closing])) items ∧ items.terms = as := by
  obtain ⟨items, hitems, heq⟩ := exists_spelled_intercalate h
  exact ⟨items, .mk .nil hitems .nil, heq⟩

mutual

/-- An ordered tree with finite numbers is printed as JSON that derives it. -/
theorem derives_render : (t : Tree) → (ordered : t.Ordered) → t.Finite →
    Derives t.render.toList ⟨t, ordered⟩
  | .null, _, _ => .null
  | .bool true, _, _ => .bool true
  | .bool false, _, _ => .bool false
  | .number x, _, finite => by
    obtain ⟨p, hvalid, htext, heq⟩ := Binary64.exists_parts_of_isFinite finite
    have number := Derives.number hvalid (heq.symm ▸ finite)
    rw [htext, heq] at number
    exact number
  | .string s, _, _ => by
    have text := Derives.string (writes_flatMap_stringChar s.toList)
    rw [← toList_stringText, String.ofList_toList] at text
    exact text
  | .array ts, ordered, finite => by
    obtain ⟨vs, hvs, htrees⟩ := derives_renderAll ts ordered finite
    obtain ⟨items, hitems, hterms⟩ := bracketed_of_forall₂ hvs
    have value : Value.array items.terms = ⟨.array ts, ordered⟩ :=
      Value.eq_of_tree_eq (congrArg Tree.array (by rw [hterms, htrees]))
    have array := Derives.array hitems
    rw [value] at array
    simpa [Tree.render] using array
  | .object ms, ordered, finite => by
    obtain ⟨vs, hvs, htrees⟩ := derives_renderMembers ms ordered.2 finite
    obtain ⟨items, hitems, hterms⟩ := bracketed_of_forall₂ hvs
    -- Only here does it count that the tree is ordered.
    have value : Value.object items.terms = ⟨.object ms, ordered⟩ := by
      refine Value.eq_of_tree_eq (congrArg Tree.object ?_)
      rw [hterms, Value.memberTrees_eq (htrees.symm ▸ ordered.1), htrees]
    have object := Derives.object hitems
    rw [value] at object
    simpa [Tree.render] using object

/-- For the items of an array, the values that their texts derive. They are given with their trees,
for the orderedness of an item is part of its value. -/
theorem derives_renderAll : (ts : List Tree) → Tree.AllOrdered ts → Tree.AllFinite ts →
    ∃ vs : List Value, List.Forall₂ Derives ((Tree.renderAll ts).map String.toList) vs ∧
      vs.map Value.tree = ts
  | [], _, _ => ⟨[], .nil, rfl⟩
  | t :: ts, ordered, finite => by
    obtain ⟨vs, hvs, htrees⟩ := derives_renderAll ts ordered.2 finite.2
    exact ⟨_ :: vs, .cons (derives_render t ordered.1 finite.1) hvs, by rw [List.map_cons, htrees]⟩

/-- For the members of an object, keys included. Their keys increase, so inserting them gives the
members back that were printed. -/
theorem derives_renderMembers : (ms : List (String × Tree)) → Tree.MembersOrdered ms →
    Tree.MembersFinite ms → ∃ vs : List (String × Value),
      List.Forall₂ (Member Derives) ((Tree.renderMembers ms).map String.toList) vs ∧
        vs.map (fun m => (m.1, m.2.tree)) = ms
  | [], _, _ => ⟨[], .nil, rfl⟩
  | (key, t) :: ms, ordered, finite => by
    obtain ⟨vs, hvs, htrees⟩ := derives_renderMembers ms ordered.2 finite.2
    have member := Member.mk (writes_flatMap_stringChar key.toList) (symbol_alone ':')
      (derives_render t ordered.1 finite.1)
    rw [String.ofList_toList] at member
    refine ⟨(key, ⟨t, ordered.1⟩) :: vs, .cons ?_ hvs, by rw [List.map_cons, htrees]⟩
    simpa [toList_stringText] using member

end

/-! ## Printing and reading -/

/-- Printed, with any white space around it, the value is what is read; and that prints the same
again. -/
def RoundTrips (v : Value) : Prop :=
  ∀ w w' : String, Blanks w.toList → Blanks w'.toList →
    parse (w ++ v.render ++ w') = .accepted v "" ∧
      ∀ (v' : Value) (rest : String), parse (w ++ v.render ++ w') = .accepted v' rest →
        v'.render = v.render

/-- **Printing and then reading is the identity** on the values with finite numbers, and whatever
is read is such a value. -/
theorem roundTrips_of_finite :
    (∀ v : Value, v.Finite → RoundTrips v) ∧
      ∀ (text : String) (v : Value) (rest : String), parse text = .accepted v rest →
        v.Finite ∧ RoundTrips v := by
  have roundTrips : ∀ v : Value, v.Finite → RoundTrips v := by
    intro v hv w w' hw hw'
    have derives : DerivesText (w ++ v.render ++ w').toList v := by
      have padded := Padded.mk hw (derives_render v.tree v.ordered hv) hw'
      simpa [DerivesText, Value.render] using padded
    have accepted := parse_of_derivesText derives
    refine ⟨accepted, fun v' rest h => ?_⟩
    obtain ⟨rfl, -⟩ := Verdict.accepted.inj (accepted.symm.trans h)
    rfl
  refine ⟨roundTrips, fun text v rest h => ?_⟩
  have finite := (derivesText_of_parse h).2.finite
  exact ⟨finite, roundTrips v finite⟩

/-- With white space around it, `{"\\":[-0.5,null]}` is read back: a key that is escaped, a fraction
and a list in an object. -/
theorem roundTrips_of_finite_spaced :
    let v := Value.object [("\\", .array [.number ⟨0xBFE0000000000000⟩, .null])]
    parse ("\t" ++ v.render ++ " \n") = .accepted v "" ∧ v.Finite ∧ RoundTrips v := by
  intro v
  have number : (Binary64.mk 0xBFE0000000000000).isFinite = true := by decide
  have finite : v.Finite := ⟨⟨number, trivial, trivial⟩, trivial⟩
  have before : Blanks "\t".toList := List.all_eq_true.1 (by decide)
  have after : Blanks " \n".toList := List.all_eq_true.1 (by decide)
  have accepted := (roundTrips_of_finite.1 v finite "\t" " \n" before after).1
  exact ⟨accepted, roundTrips_of_finite.2 _ v "" accepted⟩

end Descent.Json
