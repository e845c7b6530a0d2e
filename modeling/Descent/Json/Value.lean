/-
JSON values.

A value is an ordered tree. An object is made from members in any order by inserting
them one after another, so of several members with one key the last remains, and the
order they came in leaves no trace.
-/
import Descent.Json.Tree

set_option autoImplicit false

namespace Descent.Json

namespace Tree

/-! ## Insertion keeps the order -/

/-- A key that is inserted is there afterwards, and no other key comes or goes, whether it is new or
has its value exchanged. -/
theorem mem_keys_insert {key k : String} {t : Tree} {members : List (String × Tree)} :
    k ∈ (insert key t members).map Prod.fst ↔ k = key ∨ k ∈ members.map Prod.fst := by
  induction members with
  | nil => simp [insert]
  | cons m members ih =>
    obtain ⟨l, u⟩ := m
    rw [insert]
    split
    · simp
    · split
      · next h => subst h; simp
      · rw [List.map_cons, List.mem_cons, ih, List.map_cons, List.mem_cons]
        exact or_left_comm

/-- The new member is put before the first one with a greater key, so the keys go on increasing and
none is there twice. -/
theorem Increasing.insert {members : List (String × Tree)} (h : Increasing members)
    (key : String) (t : Tree) : Increasing (insert key t members) := by
  induction members with
  | nil => simp [Tree.insert, Increasing]
  | cons m members ih =>
    obtain ⟨l, u⟩ := m
    have hl := (List.pairwise_cons.1 h).1
    have hms : Increasing members := (List.pairwise_cons.1 h).2
    rw [Tree.insert]
    split
    · next hlt =>
      refine List.pairwise_cons.2 ⟨fun k hk => ?_, h⟩
      rcases List.mem_cons.1 hk with rfl | hk
      · exact hlt
      · exact String.lt_trans hlt (hl k hk)
    · next hlt =>
      split
      · next heq => subst heq; exact h
      · next hne =>
        refine List.pairwise_cons.2 ⟨fun k hk => ?_, ih hms⟩
        rcases mem_keys_insert.1 hk with rfl | hk
        · exact Std.lt_of_le_of_ne (Std.not_lt.1 hlt) (Ne.symm hne)
        · exact hl k hk

/-- The trees inside are those that were there, and the new one, so they are ordered all. -/
theorem MembersOrdered.insert {members : List (String × Tree)} (h : MembersOrdered members)
    (key : String) {t : Tree} (ht : t.Ordered) : MembersOrdered (insert key t members) := by
  induction members with
  | nil => exact ⟨ht, trivial⟩
  | cons m members ih =>
    obtain ⟨l, u⟩ := m
    rw [Tree.insert]
    split
    · exact ⟨ht, h⟩
    · split
      · exact ⟨ht, h.2⟩
      · exact ⟨h.1, ih h.2⟩

end Tree

/-- A JSON value: an ordered tree. -/
structure Value where
  tree : Tree
  ordered : tree.Ordered

namespace Value

/-! ## Making values -/

/-- The value null. -/
def null : Value := ⟨.null, trivial⟩

instance : Inhabited Value := ⟨null⟩

/-- A truth value. -/
def bool (b : Bool) : Value := ⟨.bool b, trivial⟩

/-- A number. -/
def number (x : Binary64) : Value := ⟨.number x, trivial⟩

/-- A text. -/
def string (s : String) : Value := ⟨.string s, trivial⟩

/-- Values are ordered by their own proof, so trees taken from values are. -/
theorem allOrdered_trees (items : List Value) : Tree.AllOrdered (items.map tree) := by
  induction items with
  | nil => exact trivial
  | cons v items ih => exact ⟨v.ordered, ih⟩

/-- Values in a row. -/
def array (items : List Value) : Value :=
  ⟨.array (items.map tree), allOrdered_trees items⟩

/-- The members inserted from left to right. -/
def memberTrees (members : List (String × Value)) : List (String × Tree) :=
  members.foldl (fun ms (key, v) => Tree.insert key v.tree ms) []

/-- Inserting keeps both orders at each step, so an object need not be checked once it is made. -/
theorem ordered_foldl_insert (members : List (String × Value)) (ms : List (String × Tree))
    (h : Tree.Increasing ms ∧ Tree.MembersOrdered ms) :
    let all := members.foldl (fun ms (key, v) => Tree.insert key v.tree ms) ms
    Tree.Increasing all ∧ Tree.MembersOrdered all := by
  induction members generalizing ms with
  | nil => exact h
  | cons m members ih => exact ih _ ⟨h.1.insert _ _, h.2.insert _ m.2.ordered⟩

/-- Of several members with one key, the last one counts. -/
def object (members : List (String × Value)) : Value :=
  ⟨.object (memberTrees members), ordered_foldl_insert members [] ⟨List.Pairwise.nil, trivial⟩⟩

/-! ## Comparing and writing values -/

/-- Equality where numbers are compared as numbers. -/
def equal (v w : Value) : Bool :=
  v.tree.equal w.tree

/-- The value as JSON, without white space. -/
def render (v : Value) : String :=
  v.tree.render

end Value

end Descent.Json
