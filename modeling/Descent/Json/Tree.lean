/-
JSON trees.

A tree is the syntax of a JSON value: its members are a list, and nothing keeps a key
from standing there twice. A tree is *ordered* when the keys of each object increase
strictly, in the order of their code points. Each value has one ordered tree.
-/
import Descent.Number.Binary64

set_option autoImplicit false

namespace Descent.Json

/-- A JSON value as it is written. -/
inductive Tree where
  | null
  | bool (b : Bool)
  | number (x : Binary64)
  | string (s : String)
  | array (items : List Tree)
  | object (members : List (String × Tree))

namespace Tree

/-! ## Order -/

/-- The members with one more. A member with the same key is replaced; otherwise the new
one stands before the first member with a greater key. -/
def insert (key : String) (t : Tree) : List (String × Tree) → List (String × Tree)
  | [] => [(key, t)]
  | (k, u) :: members =>
    if key < k then (key, t) :: (k, u) :: members
    else if key = k then (key, t) :: members
    else (k, u) :: insert key t members

/-- The keys increase strictly. -/
def Increasing (members : List (String × Tree)) : Prop :=
  (members.map Prod.fst).Pairwise (· < ·)

mutual

/-- The keys of each object in the tree increase strictly. -/
def Ordered : Tree → Prop
  | null | bool _ | number _ | string _ => True
  | array items => AllOrdered items
  | object members => Increasing members ∧ MembersOrdered members

/-- The same of each tree in a list. -/
def AllOrdered : List Tree → Prop
  | [] => True
  | t :: ts => t.Ordered ∧ AllOrdered ts

/-- The same of each member of an object. -/
def MembersOrdered : List (String × Tree) → Prop
  | [] => True
  | (_, t) :: members => t.Ordered ∧ MembersOrdered members

end

/-! ## Equality -/

mutual

/-- Equality where numbers are compared as numbers. -/
def equal : Tree → Tree → Bool
  | null, null => true
  | bool a, bool b => a == b
  | number x, number y => x.numericallyEqual y
  | string s, string t => s == t
  | array ts, array us => allEqual ts us
  | object ms, object ns => membersEqual ms ns
  | _, _ => false

/-- The same of two lists, item by item. -/
def allEqual : List Tree → List Tree → Bool
  | [], [] => true
  | t :: ts, u :: us => t.equal u && allEqual ts us
  | _, _ => false

/-- The same of the members of two objects, in the order they stand in. -/
def membersEqual : List (String × Tree) → List (String × Tree) → Bool
  | [], [] => true
  | (k, t) :: ms, (l, u) :: ns => k == l && t.equal u && membersEqual ms ns
  | _, _ => false

end

/-! ## Text -/

/-- A character as it stands in a JSON string. -/
def stringChar : Char → List Char
  | '"' => ['\\', '"']
  | '\\' => ['\\', '\\']
  | '\n' => ['\\', 'n']
  | '\r' => ['\\', 'r']
  | '\t' => ['\\', 't']
  | '\x08' => ['\\', 'b']
  | c => [c]

/-- A text in quotes. -/
def stringText (s : String) : String :=
  "\"" ++ String.ofList (s.toList.flatMap stringChar) ++ "\""

mutual

/-- The tree as JSON, without white space. -/
def render : Tree → String
  | null => "null"
  | bool b => if b then "true" else "false"
  | number x => x.render
  | string s => stringText s
  | array items => "[" ++ String.intercalate "," (renderAll items) ++ "]"
  | object members => "\x7b" ++ String.intercalate "," (renderMembers members) ++ "\x7d"

/-- Each tree of a list. -/
def renderAll : List Tree → List String
  | [] => []
  | t :: ts => t.render :: renderAll ts

/-- Each member of an object, its key before a colon. -/
def renderMembers : List (String × Tree) → List String
  | [] => []
  | (k, t) :: members => (stringText k ++ ":" ++ t.render) :: renderMembers members

end

end Tree

end Descent.Json
