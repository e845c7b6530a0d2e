/-
Members of objects.

An object is made of its members from left to right, so a key has the value of the last member
with it. Members in strictly increasing order are determined by the values of their keys, so this
is all that an object keeps of the row of its members (`Value.object_congr`). The order of members
with different keys is lost, and so is each member whose key comes again.

A text with an object in it is the object's text and what surrounds it, and is read as a value
that is told from what surrounds it and the value of the object (`Place`). So what may change in
the text of an object without changing its value may change in the whole text, at any depth.
-/
import Descent.Proofs.Json.DisplayedKeys

set_option autoImplicit false

namespace Descent.Json

open Text

/-! ## Values of keys -/

/-- The first member has its say for its own key, and leaves all others to those behind it. The
library compares the keys the other way round. -/
theorem lookup_cons {α : Type} (l : String) (a : α) (members : List (String × α)) (k : String) :
    ((l, a) :: members).lookup k = if k = l then some a else members.lookup k := by
  by_cases h : k = l
  · rw [if_pos h, h, List.lookup_cons_self]
  · rw [if_neg h, List.lookup_cons, beq_eq_false_iff_ne.2 h]

/-- A key has a value just where some member has it, so which keys there are can be told from their
values. -/
theorem lookup_isSome_iff {α : Type} {members : List (String × α)} {k : String} :
    (members.lookup k).isSome = true ↔ k ∈ members.map Prod.fst := by
  induction members with
  | nil => simp
  | cons m members ih =>
    rw [lookup_cons, List.map_cons, List.mem_cons]
    split
    · next h => simp [h]
    · next h => rw [ih, or_iff_right h]

namespace Tree

variable {ms ns : List (String × Tree)}

/-- To insert a member sets the value of its key, wherever it is put, and leaves the values of all
other keys. -/
theorem lookup_insert (key : String) (t : Tree) (ms : List (String × Tree)) (k : String) :
    (insert key t ms).lookup k = if k = key then some t else ms.lookup k := by
  induction ms with
  | nil => rw [insert, lookup_cons]
  | cons m ms ih =>
    obtain ⟨l, u⟩ := m
    rw [insert]
    split
    · rw [lookup_cons]
    · split
      · next heq =>
        rw [lookup_cons, lookup_cons, ← heq]
        split <;> rfl
      · next hne =>
        rw [lookup_cons, lookup_cons, ih]
        by_cases h : k = l
        · have other : k ≠ key := fun heq => hne (heq.symm.trans h)
          rw [if_pos h, if_neg other, if_pos h]
        · rw [if_neg h, if_neg h]

/-- A key that is below all others is not there. -/
theorem lookup_eq_none_of_lt {k : String} (h : ∀ l ∈ ms.map Prod.fst, k < l) :
    ms.lookup k = none := by
  refine Option.not_isSome_iff_eq_none.1 fun some => ?_
  exact String.lt_irrefl k (h k (lookup_isSome_iff.1 some))

/-- No key that is there is below the first one, so of two equal maps neither can begin before the
other. -/
theorem Increasing.not_lt_head {k l : String} {u : Tree} (h : Increasing ((l, u) :: ns))
    (some : (((l, u) :: ns).lookup k).isSome = true) : ¬ k < l := by
  intro lt
  have none : ((l, u) :: ns).lookup k = none := by
    refine lookup_eq_none_of_lt (List.forall_mem_cons.2 ⟨lt, fun j hj => ?_⟩)
    exact String.lt_trans lt ((List.pairwise_cons.1 h).1 j hj)
  rw [none] at some
  cases some

/-- **Members in increasing order are determined by the values of their keys.** -/
theorem Increasing.eq_of_lookup_eq (h : Increasing ms) (h' : Increasing ns)
    (same : ∀ k, ms.lookup k = ns.lookup k) : ms = ns := by
  induction ms generalizing ns with
  | nil =>
    cases ns with
    | nil => rfl
    | cons n ns =>
      have first := same n.1
      rw [lookup_cons, if_pos rfl] at first
      cases first
  | cons m ms ih =>
    cases ns with
    | nil =>
      have first := same m.1
      rw [lookup_cons, if_pos rfl] at first
      cases first
    | cons n ns =>
      obtain ⟨k, t⟩ := m
      obtain ⟨l, u⟩ := n
      have at_k : some t = ((l, u) :: ns).lookup k := by rw [← same, lookup_cons, if_pos rfl]
      have at_l : ((k, t) :: ms).lookup l = some u := by rw [same, lookup_cons, if_pos rfl]
      -- Each of the two first keys is a key of the other members too, so they are the same.
      have heads : k = l := by
        by_contra differ
        have not_lt : ¬ k < l := h'.not_lt_head (by rw [← at_k]; rfl)
        have lt : l < k := Std.lt_of_le_of_ne (Std.not_lt.1 not_lt) (Ne.symm differ)
        exact h.not_lt_head (by rw [at_l]; rfl) lt
      subst heads
      rw [lookup_cons, if_pos rfl] at at_k
      cases at_k
      rw [ih (List.pairwise_cons.1 h).2 (List.pairwise_cons.1 h').2 fun j => ?_]
      by_cases hj : j = k
      · have below := (List.pairwise_cons.1 h).1
        have below' := (List.pairwise_cons.1 h').1
        rw [hj, lookup_eq_none_of_lt below, lookup_eq_none_of_lt below']
      · have rest := same j
        rwa [lookup_cons, lookup_cons, if_neg hj, if_neg hj] at rest

end Tree

namespace Value

/-! ## Objects from members -/

/-- By induction on the members that are inserted. A later one overwrites what an earlier one has
set, so the row is searched from its end. -/
theorem lookup_foldl_insert (members : List (String × Value)) (ms : List (String × Tree))
    (k : String) :
    (members.foldl (fun ms (key, v) => Tree.insert key v.tree ms) ms).lookup k =
      ((members.reverse.lookup k).map tree).or (ms.lookup k) := by
  induction members generalizing ms with
  | nil => rfl
  | cons m members ih =>
    obtain ⟨key, v⟩ := m
    rw [List.foldl_cons, ih, Tree.lookup_insert, List.reverse_cons, List.lookup_append,
      lookup_cons]
    cases members.reverse.lookup k with
    | some w => rfl
    | none => by_cases h : k = key <;> simp [h]

/-- **A key has the value of the last member with it.** -/
theorem lookup_memberTrees (members : List (String × Value)) (k : String) :
    (memberTrees members).lookup k = (members.reverse.lookup k).map tree := by
  rw [memberTrees, lookup_foldl_insert, List.lookup_nil, Option.or_none]

/-- Members with the same last values make the same object. -/
theorem object_congr {ms ns : List (String × Value)}
    (h : ∀ k, ms.reverse.lookup k = ns.reverse.lookup k) : object ms = object ns := by
  have same : memberTrees ms = memberTrees ns := by
    refine (object ms).ordered.1.eq_of_lookup_eq (object ns).ordered.1 fun k => ?_
    rw [lookup_memberTrees, lookup_memberTrees, h]
  exact eq_of_tree_eq (congrArg Tree.object same)

/-- Members with different keys may change places: each key still finds the same last member. -/
theorem object_swap (before : List (String × Value)) {m n : String × Value} (h : m.1 ≠ n.1)
    (after : List (String × Value)) :
    object (before ++ m :: n :: after) = object (before ++ n :: m :: after) := by
  refine object_congr fun k => ?_
  obtain ⟨key, v⟩ := m
  obtain ⟨key', w⟩ := n
  simp only [List.reverse_append, List.reverse_cons, List.append_assoc, List.lookup_append,
    List.cons_append, List.nil_append, lookup_cons]
  by_cases hk : k = key
  · have other : k ≠ key' := fun heq => h (hk.symm.trans heq)
    rw [if_pos hk, if_neg other, if_neg other, if_pos hk]
  · rw [if_neg hk, if_neg hk]

/-- A member whose key comes again may be left out. -/
theorem object_drop (before : List (String × Value)) {m : String × Value}
    {after : List (String × Value)} (h : m.1 ∈ after.map Prod.fst) :
    object (before ++ m :: after) = object (before ++ after) := by
  refine object_congr fun k => ?_
  obtain ⟨key, v⟩ := m
  simp only [List.reverse_append, List.reverse_cons, List.append_assoc, List.lookup_append,
    List.cons_append, List.nil_append, lookup_cons]
  by_cases hk : k = key
  · -- The later member is found first.
    have later : k ∈ after.reverse.map Prod.fst := by
      rw [hk, List.map_reverse, List.mem_reverse]
      exact h
    obtain ⟨w, hw⟩ := Option.isSome_iff_exists.1 (lookup_isSome_iff.2 later)
    rw [hw]
    rfl
  · rw [if_neg hk]

end Value

/-! ## Items in brackets -/

section Brackets

variable {α : Type} {P : List Char → α → Prop} {opening closing : Char}
  {u cs front back : List Char} {a : α} {before after : List α}

/-- Something with a comma behind it. -/
inductive Followed (P : List Char → α → Prop) : List Char → α → Prop
  | mk {u comma : List Char} {a : α} (h : P u a) (hcomma : Symbol ',' comma ()) :
      Followed P (u ++ comma) a

/-- A text in brackets up to one of its items. -/
inductive Front (opening : Char) (P : List Char → α → Prop) : List Char → List α → Prop
  | mk {w cs : List Char} {items : List α} (hw : Blanks w) (h : Row (Followed P) cs items) :
      Front opening P (opening :: (w ++ cs)) items

/-- A text in brackets from behind one of its items on. -/
inductive Back (closing : Char) (P : List Char → α → Prop) : List Char → List α → Prop
  | mk {cs w : List Char} {links : List (Unit × α)} (h : Row (Chain.Link P (Symbol ',')) cs links)
      (hw : Blanks w) : Back closing P (cs ++ (w ++ [closing])) (links.map Prod.snd)

/-- One item more is behind the same item, with the comma between the two. The back grows at its
front. -/
theorem Back.cons {comma : List Char} (hcomma : Symbol ',' comma ()) (h : P u a)
    (hback : Back closing P back after) :
    Back closing P (comma ++ (u ++ back)) (a :: after) := by
  obtain @⟨cs, w, links, hlinks, hw⟩ := hback
  have all : Back closing P (comma ++ u ++ cs ++ (w ++ [closing])) (a :: links.map Prod.snd) :=
    .mk (.cons (.mk hcomma h) hlinks) hw
  simpa only [List.append_assoc] using all

/-- A chain with one term more at its beginning. What was the head becomes the first link, behind
the new comma. -/
theorem exists_spelled_cons {comma : List Char} {items : Chain α Unit} (h : P u a)
    (hcomma : Symbol ',' comma ()) (hitems : Chain.Spelled P (Symbol ',') cs items)
    (nonempty : items.terms ≠ []) :
    ∃ longer, Chain.Spelled P (Symbol ',') (u ++ (comma ++ cs)) longer ∧
      longer.terms = a :: items.terms := by
  cases hitems with
  | empty => exact absurd rfl nonempty
  | @links v cs head tail hhead htail =>
    have all := Chain.Spelled.links h (.cons (.mk hcomma hhead) htail)
    exact ⟨_, by simpa only [List.append_assoc] using all, rfl⟩

/-- What is before an item, the item and what is behind it are a text in brackets. -/
theorem Front.exists_bracketed (hfront : Front opening P front before) (h : P u a)
    (hback : Back closing P back after) :
    ∃ items, Bracketed opening closing P (front ++ (u ++ back)) items ∧
      items.terms = before ++ a :: after := by
  obtain @⟨w, cs, before, hw, hrow⟩ := hfront
  obtain @⟨ds, w', links, hlinks, hw'⟩ := hback
  -- On the items before it, each of which goes before a chain that has a term.
  have chain : ∃ items, Chain.Spelled P (Symbol ',') (cs ++ (u ++ ds)) items ∧
      items.terms = before ++ a :: links.map Prod.snd := by
    clear hw
    induction hrow with
    | nil =>
      have alone : Chain.Spelled P (Symbol ',') (u ++ ds) (.links a links) := .links h hlinks
      exact ⟨_, alone, rfl⟩
    | cons hitem _ ih =>
      obtain ⟨items, hitems, hterms⟩ := ih
      obtain ⟨hitem, hcomma⟩ := hitem
      obtain ⟨longer, hlonger, heq⟩ := exists_spelled_cons hitem hcomma hitems (by simp [hterms])
      refine ⟨longer, ?_, by rw [heq, hterms, List.cons_append]⟩
      simpa only [List.append_assoc] using hlonger
  obtain ⟨items, hitems, hterms⟩ := chain
  refine ⟨items, ?_, hterms⟩
  have all : Bracketed opening closing P _ items := .mk hw hitems hw'
  simpa only [List.append_assoc, List.cons_append] using all

/-- A chain is cut around one of its terms. The comma before the term goes with what is before it,
and the comma behind it with what is behind. -/
theorem exists_parts_of_spelled {items : Chain α Unit}
    (h : Chain.Spelled P (Symbol ',') cs items) (split : items.terms = before ++ a :: after) :
    ∃ (ds u es : List Char) (links : List (Unit × α)), cs = ds ++ (u ++ es) ∧
      Row (Followed P) ds before ∧ P u a ∧ Row (Chain.Link P (Symbol ',')) es links ∧
      links.map Prod.snd = after := by
  induction before generalizing cs items with
  | nil =>
    cases h with
    | empty => cases split
    | links hhead htail =>
      cases split
      exact ⟨[], _, _, _, rfl, .nil, hhead, htail, rfl⟩
  | cons b before ih =>
    cases h with
    | empty => cases split
    | links hhead htail =>
      obtain ⟨rfl, terms⟩ := List.cons.inj split
      cases htail with
      | nil => exact absurd terms (by simp)
      | cons hlink hmore =>
        -- The comma goes with the first term, and the rest is a chain.
        obtain ⟨hcomma, hnext⟩ := hlink
        obtain ⟨ds, u, es, links, heq, hrow, rest⟩ := ih (.links hnext hmore) terms
        refine ⟨_, u, es, links, ?_, .cons (.mk hhead hcomma) hrow, rest⟩
        simp only [List.append_assoc, ← heq]

/-- Each item of a text in brackets has such a place in it. -/
theorem Bracketed.exists_parts {items : Chain α Unit} (h : Bracketed opening closing P cs items)
    (split : items.terms = before ++ a :: after) :
    ∃ front u back, cs = front ++ (u ++ back) ∧ Front opening P front before ∧ P u a ∧
      Back closing P back after := by
  obtain ⟨hw, hitems, hw'⟩ := h
  obtain ⟨ds, u, es, links, rfl, hrow, hu, hlinks, rfl⟩ := exists_parts_of_spelled hitems split
  refine ⟨_, u, _, ?_, .mk hw hrow, hu, .mk hlinks hw'⟩
  simp only [List.append_assoc, List.cons_append]

end Brackets

/-! ## Places in a text -/

/-- A value has a place in a text between `front` and `back`, and with the value `v` there, the
text is JSON for `f v`. A whole text has such a place in the white space around it
(`exists_place_of_parse`), and where an array or an object has one, each value in it has one too
(`Place.exists_item`, `Place.exists_member`). -/
inductive Place : List Char → List Char → (Value → Value) → Prop
  | whole {w w' : List Char} (before : Blanks w) (after : Blanks w') : Place w w' id
  | item {front back left right : List Char} {f : Value → Value} {vs ws : List Value}
      (outer : Place front back f) (hleft : Front '[' Derives left vs)
      (hright : Back ']' Derives right ws) :
      Place (front ++ left) (right ++ back) fun v => f (.array (vs ++ v :: ws))
  | member {front back left right key meant colon : List Char} {f : Value → Value}
      {ms ns : List (String × Value)} (outer : Place front back f)
      (hleft : Front '\x7b' (Member Derives) left ms) (hkey : Token.Writes '"' key meant)
      (hcolon : Symbol ':' colon ()) (hright : Back '\x7d' (Member Derives) right ns) :
      Place (front ++ (left ++ '"' :: (key ++ '"' :: colon))) (right ++ back)
        fun v => f (.object (ms ++ (String.ofList meant, v) :: ns))

variable {front back cs : List Char} {f : Value → Value} {v : Value}

/-- By induction on the place: around the value is an array or an object in its own place, down to
the white space about the whole. -/
theorem Place.derivesText (place : Place front back f) (h : Derives cs v) :
    DerivesText (front ++ (cs ++ back)) (f v) := by
  induction place generalizing cs v with
  | whole before after => exact .mk before h after
  | item _ hleft hright ih =>
    obtain ⟨items, hitems, hterms⟩ := hleft.exists_bracketed h hright
    have outer := ih (.array hitems)
    rw [hterms] at outer
    simpa only [List.append_assoc] using outer
  | member _ hleft hkey hcolon hright ih =>
    obtain ⟨members, hmembers, hterms⟩ := hleft.exists_bracketed (.mk hkey hcolon h) hright
    have outer := ih (.object hmembers)
    rw [hterms] at outer
    simpa only [List.append_assoc, List.cons_append] using outer

/-- So the text is read as that, since what derives a value is read as this value and there is no
other. -/
theorem Place.parse_eq (place : Place front back f) (h : Derives cs v) :
    parse (String.ofList (front ++ (cs ++ back))) = .accepted (f v) "" := by
  have derives := place.derivesText h
  rw [← String.toList_ofList (l := front ++ (cs ++ back))] at derives
  exact parse_of_derivesText derives

/-- A text that is read is a value in its place. -/
theorem exists_place_of_parse {text rest : String} (h : parse text = .accepted v rest) :
    ∃ front cs back, text.toList = front ++ (cs ++ back) ∧ Derives cs v ∧ Place front back id := by
  obtain ⟨-, derives⟩ := derivesText_of_parse h
  generalize text.toList = whole at derives ⊢
  obtain ⟨before, derives, after⟩ := derives
  exact ⟨_, _, _, rfl, derives, .whole before after⟩

/-- Where an array has a place, each of its items has one. -/
theorem Place.exists_item (place : Place front back f) {items : Chain Value Unit}
    (h : Bracketed '[' ']' Derives cs items) {vs ws : List Value}
    (split : items.terms = vs ++ v :: ws) :
    ∃ left u right, cs = left ++ (u ++ right) ∧ Derives u v ∧
      Place (front ++ left) (right ++ back) fun v => f (.array (vs ++ v :: ws)) := by
  obtain ⟨left, u, right, heq, hleft, hu, hright⟩ := h.exists_parts split
  exact ⟨left, u, right, heq, hu, place.item hleft hright⟩

/-- Where an object has a place, the value of each of its members has one. -/
theorem Place.exists_member (place : Place front back f)
    {members : Chain (String × Value) Unit}
    (h : Bracketed '\x7b' '\x7d' (Member Derives) cs members) {ms ns : List (String × Value)}
    {key : String} (split : members.terms = ms ++ (key, v) :: ns) :
    ∃ left u right, cs = left ++ (u ++ right) ∧ Derives u v ∧
      Place (front ++ left) (right ++ back) fun v => f (.object (ms ++ (key, v) :: ns)) := by
  obtain ⟨left, _, right, heq, hleft, ⟨hkey, hcolon, hu⟩, hright⟩ := h.exists_parts split
  refine ⟨_, _, right, ?_, hu, place.member hleft hkey hcolon hright⟩
  rw [heq]
  simp only [List.append_assoc, List.cons_append]

/-! ## Members of objects -/

/-- The text of an object, cut around two of its members that follow one another. -/
structure Neighbours (opening u comma v closing : List Char) (before : List (String × Value))
    (m n : String × Value) (after : List (String × Value)) : Prop where
  front : Front '\x7b' (Member Derives) opening before
  first : Member Derives u m
  separator : Symbol ',' comma ()
  second : Member Derives v n
  back : Back '\x7d' (Member Derives) closing after

section Neighbours

variable {opening u comma w closing : List Char} {before after : List (String × Value)}
  {m n : String × Value}

/-- Two members that follow one another in an object do so in its text. -/
theorem exists_neighbours {object : List Char} {members : Chain (String × Value) Unit}
    (h : Bracketed '\x7b' '\x7d' (Member Derives) object members)
    (split : members.terms = before ++ m :: n :: after) :
    ∃ opening u comma w closing, object = opening ++ (u ++ (comma ++ (w ++ closing))) ∧
      Neighbours opening u comma w closing before m n after := by
  obtain ⟨opening, u, back, rfl, hfront, hu, hback⟩ := h.exists_parts split
  generalize hrest : n :: after = rest at hback
  obtain @⟨_, w', links, hlinks, hw'⟩ := hback
  cases hlinks with
  | nil => cases hrest
  | cons hlink hmore =>
    obtain ⟨hcomma, hnext⟩ := hlink
    obtain ⟨rfl, rfl⟩ := List.cons.inj hrest
    refine ⟨opening, u, _, _, _, ?_, hfront, hu, hcomma, hnext, .mk hmore hw'⟩
    simp only [List.append_assoc]

/-- Put together again, the parts are the text of the object, with the two members in their order.
-/
theorem Neighbours.parse_eq (h : Neighbours opening u comma w closing before m n after)
    (place : Place front back f) :
    parse (String.ofList (front ++ (opening ++ (u ++ (comma ++ (w ++ closing))) ++ back))) =
      .accepted (f (.object (before ++ m :: n :: after))) "" := by
  have later := h.back.cons h.separator h.second
  obtain ⟨members, hmembers, hterms⟩ := h.front.exists_bracketed h.first later
  rw [place.parse_eq (.object hmembers), hterms]

/-- The comma stands between the two texts whichever comes first, and what is before and behind them
is not concerned. -/
theorem Neighbours.swap (h : Neighbours opening u comma w closing before m n after) :
    Neighbours opening w comma u closing before n m after :=
  ⟨h.front, h.second, h.separator, h.first, h.back⟩

/-- With the first of the two left out, and the comma behind it. -/
theorem Neighbours.parse_without (h : Neighbours opening u comma w closing before m n after)
    (place : Place front back f) :
    parse (String.ofList (front ++ (opening ++ (w ++ closing) ++ back))) =
      .accepted (f (.object (before ++ n :: after))) "" := by
  obtain ⟨members, hmembers, hterms⟩ := h.front.exists_bracketed h.second h.back
  rw [place.parse_eq (.object hmembers), hterms]

end Neighbours

/-- **The members of an object are a map in which the last one wins**, and its text does not keep
their order. Wherever an object stands in a text that is read, a key has the value of the last
member with it. Two neighbours with different keys may change places, and a member whose key comes
again may be left out: what is read stays the same, and so does what is printed of it. In what is
printed of any value, the bytes of the keys of each object increase, the keys being those that are
read off the text.

No object is left out by this. A text that is read is a value in its place, and where an array or an
object has a place, each value in it has one too. -/
theorem parse_members {front back : List Char} {f : Value → Value} (place : Place front back f) :
    let read (object : List Char) : Verdict Value :=
      parse (String.ofList (front ++ (object ++ back)))
    (∀ (object : List Char) (members : Chain (String × Value) Unit),
      Bracketed '\x7b' '\x7d' (Member Derives) object members →
        read object = .accepted (f (.object members.terms)) "" ∧
        (∃ trees, (Value.object members.terms).tree = .object trees ∧
          ∀ key, trees.lookup key = (members.terms.reverse.lookup key).map Value.tree) ∧
        ∀ before m n after, members.terms = before ++ m :: n :: after →
          ∃ opening u comma w closing, object = opening ++ (u ++ (comma ++ (w ++ closing))) ∧
            Neighbours opening u comma w closing before m n after) ∧
    (∀ opening u comma w closing before m n after,
      Neighbours opening u comma w closing before m n after →
        (m.1 ≠ n.1 → ∃ v, read (opening ++ (u ++ (comma ++ (w ++ closing)))) = .accepted v "" ∧
          read (opening ++ (w ++ (comma ++ (u ++ closing)))) = .accepted v "") ∧
        (m.1 ∈ (n :: after).map Prod.fst →
          ∃ v, read (opening ++ (u ++ (comma ++ (w ++ closing)))) = .accepted v "" ∧
            read (opening ++ (w ++ closing)) = .accepted v "")) ∧
    (∀ v : Value, ∀ keys ∈ objectKeys v.render,
      keys.Pairwise (fun k l => k.toUTF8.data.toList < l.toUTF8.data.toList) ∧ keys.Nodup) ∧
    (∀ v : Value, objectKeys v.render = v.tree.keyLists) ∧
    (∀ text v rest, parse text = .accepted v rest → ∃ front cs back,
      text.toList = front ++ (cs ++ back) ∧ Derives cs v ∧ Place front back id) ∧
    (∀ (cs : List Char) (items : Chain Value Unit), Bracketed '[' ']' Derives cs items →
      ∀ before v after, items.terms = before ++ v :: after → ∃ left u right,
        cs = left ++ (u ++ right) ∧ Derives u v ∧
          Place (front ++ left) (right ++ back) fun v => f (.array (before ++ v :: after))) ∧
    ∀ (cs : List Char) (members : Chain (String × Value) Unit),
      Bracketed '\x7b' '\x7d' (Member Derives) cs members →
      ∀ before key v after, members.terms = before ++ (key, v) :: after → ∃ left u right,
        cs = left ++ (u ++ right) ∧ Derives u v ∧
          Place (front ++ left) (right ++ back) fun v =>
            f (.object (before ++ (key, v) :: after)) := by
  intro read
  refine ⟨fun object members h => ⟨place.parse_eq (.object h), ⟨_, rfl, ?_⟩, ?_⟩, ?_,
    objectKeys_increasing, objectKeys_render, fun _ _ _ => exists_place_of_parse,
    fun _ _ h _ _ _ => place.exists_item h, fun _ _ h _ _ _ _ => place.exists_member h⟩
  · exact Value.lookup_memberTrees members.terms
  · exact fun before m n after split => exists_neighbours h split
  · intro opening u comma w closing before m n after h
    have here := h.parse_eq place
    refine ⟨fun differ => ⟨_, here, ?_⟩, fun later => ⟨_, here, ?_⟩⟩
    · rw [Value.object_swap before differ]
      exact h.swap.parse_eq place
    · rw [Value.object_drop before later]
      exact h.parse_without place

/-- A line break as a key, with its escape and as it is: the first of the two may be moved or left
out. -/
theorem parse_members_newline :
    let members := [("\n", Value.null), ("b", .bool true), ("\n", .bool false)]
    let v := Value.array [.object members]
    parse "[\x7b\"\\n\":null,\"b\":true,\"\n\":false\x7d]" = .accepted v "" ∧
      parse "[\x7b\"b\":true,\"\\n\":null,\"\n\":false\x7d]" = .accepted v "" ∧
      parse "[\x7b\"b\":true,\"\n\":false\x7d]" = .accepted v "" ∧
      (Value.memberTrees members).lookup "\n" = some (.bool false) := by
  intro members v
  have left : Front '[' Derives ('[' :: ([] ++ [])) [] := .mk .nil .nil
  have right : Back ']' Derives ([] ++ ([] ++ [']'])) ([].map Prod.snd) := .mk .nil .nil
  have place := Place.item (.whole .nil .nil) left right
  have front : Front '\x7b' (Member Derives) ('\x7b' :: ([] ++ [])) [] := .mk .nil .nil
  have escaped : Token.Writes '"' ['\\', 'n'] ['\n'] := .escape rfl .nil
  have letter : Token.Writes '"' ['b'] ['b'] := .plain (by decide) (by decide) .nil
  have plain : Token.Writes '"' ['\n'] ['\n'] := .plain (by decide) (by decide) .nil
  have back : Back '\x7d' (Member Derives) ([] ++ ([] ++ ['\x7d'])) ([].map Prod.snd) :=
    .mk .nil .nil
  have first := Member.mk escaped (symbol_alone ':') Derives.null
  have second := Member.mk letter (symbol_alone ':') (Derives.bool true)
  have third := Member.mk plain (symbol_alone ':') (Derives.bool false)
  have neighbours := Neighbours.mk front first (symbol_alone ',') second
    (back.cons (symbol_alone ',') third)
  obtain ⟨swap, drop⟩ := (parse_members place).2.1 _ _ _ _ _ _ _ _ _ neighbours
  have here := neighbours.parse_eq place
  obtain ⟨v₁, h₁, swapped⟩ := swap (by decide)
  obtain ⟨v₂, h₂, dropped⟩ := drop (by decide)
  obtain ⟨rfl, -⟩ := Verdict.accepted.inj (here.symm.trans h₁)
  obtain ⟨rfl, -⟩ := Verdict.accepted.inj (here.symm.trans h₂)
  exact ⟨here, swapped, dropped, by rw [Value.lookup_memberTrees]; rfl⟩

end Descent.Json
