/-
Byte offsets into a text.

A text is a list of characters; its places are counted in the bytes of its UTF-8
form, so a character moves the count by one to four and most counts inside a long
text fall *between* two characters only if the text is plain ASCII. An offset that
lies inside a character, or past the end, names no place at all: `takeBytes` and
`dropBytes` answer `none` there.

The two halves belong together (`append_of_drop`, `dropBytes_append`): an offset
names a place exactly when it is the byte length of some front part of the text.
-/

set_option autoImplicit false

namespace Descent.Text

/-! ## Length -/

/-- The number of bytes that the characters take in UTF-8. -/
def byteLength : List Char → Nat
  | [] => 0
  | c :: cs => c.utf8Size + byteLength cs

/-- The empty text takes no bytes, so whoever has consumed nothing has not moved. -/
@[simp] theorem byteLength_nil : byteLength [] = 0 := rfl

/-- Bytes are counted from the first character on, by one to four at a time. -/
@[simp] theorem byteLength_cons (c : Char) (cs : List Char) :
    byteLength (c :: cs) = c.utf8Size + byteLength cs := rfl

/-- Texts that are put together take as many bytes as they do one by one, so a cursor moves by the
length of what is consumed. -/
@[simp] theorem byteLength_append (xs ys : List Char) :
    byteLength (xs ++ ys) = byteLength xs + byteLength ys := by
  induction xs with
  | nil => simp
  | cons c xs ih => simp [ih, Nat.add_assoc]

/-- A character takes at least one byte, so only the empty text has length zero. -/
theorem byteLength_eq_zero_iff {cs : List Char} : byteLength cs = 0 ↔ cs = [] := by
  cases cs with
  | nil => simp
  | cons c cs =>
    have := c.utf8Size_pos
    simp only [byteLength_cons, reduceCtorEq, iff_false]
    omega

/-! ## The two sides of an offset -/

/-- What lies from the offset on, or `none` when no character starts there and the
text does not end there. -/
def dropBytes : Nat → List Char → Option (List Char)
  | 0, cs => some cs
  | _ + 1, [] => none
  | n + 1, c :: cs => if c.utf8Size ≤ n + 1 then dropBytes (n + 1 - c.utf8Size) cs else none

/-- What lies before the offset, or `none` when the offset names no place. -/
def takeBytes : Nat → List Char → Option (List Char)
  | 0, _ => some []
  | _ + 1, [] => none
  | n + 1, c :: cs =>
    if c.utf8Size ≤ n + 1 then (takeBytes (n + 1 - c.utf8Size) cs).map (c :: ·) else none

/-- At the beginning all of the text lies ahead, be it empty or not. -/
@[simp] theorem dropBytes_zero (cs : List Char) : dropBytes 0 cs = some cs := by
  cases cs <;> rfl

/-- And nothing lies behind, so a cut at the beginning gives the empty text and the whole. -/
@[simp] theorem takeBytes_zero (cs : List Char) : takeBytes 0 cs = some [] := by
  cases cs <;> rfl

/-- Dropping a front part and more is dropping the more from what follows it. -/
theorem dropBytes_append_add (front back : List Char) (n : Nat) :
    dropBytes (byteLength front + n) (front ++ back) = dropBytes n back := by
  induction front with
  | nil => simp
  | cons c front ih =>
    have hc := c.utf8Size_pos
    obtain ⟨m, hm⟩ : ∃ m, byteLength (c :: front) + n = m + 1 :=
      ⟨byteLength (c :: front) + n - 1, by simp only [byteLength_cons]; omega⟩
    rw [hm, List.cons_append, dropBytes, if_pos (by simp only [byteLength_cons] at hm; omega),
      ← ih]
    congr 1
    simp only [byteLength_cons] at hm
    omega

/-- The end of a front part is a place, and what follows it is the back part. -/
theorem dropBytes_append (front back : List Char) :
    dropBytes (byteLength front) (front ++ back) = some back := by
  have := dropBytes_append_add front back 0
  rwa [Nat.add_zero, dropBytes_zero] at this

/-- The same for the front part. To cut at the end of it gives back both parts. -/
theorem takeBytes_append (front back : List Char) :
    takeBytes (byteLength front) (front ++ back) = some front := by
  induction front with
  | nil => simp
  | cons c front ih =>
    have hc := c.utf8Size_pos
    obtain ⟨m, hm⟩ : ∃ m, byteLength (c :: front) = m + 1 :=
      ⟨byteLength (c :: front) - 1, by simp only [byteLength_cons]; omega⟩
    have hsub : m + 1 - c.utf8Size = byteLength front := by
      simp only [byteLength_cons] at hm
      omega
    rw [hm, List.cons_append, takeBytes, if_pos (by simp only [byteLength_cons] at hm; omega),
      hsub, ih]
    rfl

/-- An offset with something to drop to is the length of a front part. -/
theorem append_of_drop {n : Nat} {cs back : List Char} (h : dropBytes n cs = some back) :
    ∃ front, cs = front ++ back ∧ byteLength front = n := by
  fun_induction dropBytes n cs with
  | case1 cs => exact ⟨[], by simpa using h, rfl⟩
  | case2 => simp at h
  | case3 n c cs hle ih =>
    obtain ⟨front, rfl, hlen⟩ := ih h
    exact ⟨c :: front, rfl, by rw [byteLength_cons, hlen]; omega⟩
  | case4 => simp at h

/-- What can be dropped to, as a cut of the text. This is the form in which offsets are reasoned
about. -/
theorem dropBytes_eq_some_iff {n : Nat} {cs back : List Char} :
    dropBytes n cs = some back ↔ ∃ front, cs = front ++ back ∧ byteLength front = n :=
  ⟨append_of_drop, fun ⟨_, hcs, hlen⟩ => hcs ▸ hlen ▸ dropBytes_append ..⟩

/-! ## Places -/

/-- The offset lies between two characters, or at one of the two ends. -/
def IsPlace (n : Nat) (cs : List Char) : Bool :=
  (dropBytes n cs).isSome

/-- A place is the byte length of a front part. Whether a number is one can be decided by walking
through the text. -/
theorem isPlace_iff {n : Nat} {cs : List Char} :
    IsPlace n cs = true ↔ ∃ front back, cs = front ++ back ∧ byteLength front = n := by
  rw [IsPlace, Option.isSome_iff_exists]
  exact ⟨fun ⟨back, h⟩ => let ⟨front, hf⟩ := append_of_drop h; ⟨front, back, hf⟩,
    fun ⟨front, back, h⟩ => ⟨back, dropBytes_eq_some_iff.2 ⟨front, h⟩⟩⟩

end Descent.Text
