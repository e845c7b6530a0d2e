/-
Lines and columns tell places apart.

A location is made by two counts, of line breaks from the beginning and of characters back to the
last break. Both come to what a reader counts who goes through the text once: a break leads to the
beginning of the next line, and any other character one column further (`Location.after_concat`).

So whatever holds of a location is seen from one step. Before a place are complete lines, one less
than its line says, and then a part of the next line, one character shorter than its column says
(`Location.exists_lines`). Each step leads on in lexicographic order, so of two places the one
further on has the greater location, and no two share one (`Location.ofOffset?_identifies`).
-/
import Mathlib.Data.List.Induction
import Mathlib.Data.Prod.Lex
import Descent.Text.Location

set_option autoImplicit false

namespace Descent.Text

/-! ## Fronts of a text -/

/-- Of two front parts, the longer one begins with the shorter one. -/
theorem exists_append_of_byteLength_lt {front back front' back' : List Char}
    (same : front ++ back = front' ++ back') (shorter : byteLength front < byteLength front') :
    ∃ more, more ≠ [] ∧ front' = front ++ more := by
  obtain ⟨more, rfl, -⟩ | ⟨more, rfl, -⟩ := List.append_eq_append_iff.1 same
  · refine ⟨more, ?_, rfl⟩
    rintro rfl
    simp at shorter
  · rw [byteLength_append] at shorter
    omega

namespace Location

/-! ## One character further -/

/-- Where a reader stands who reads one more character. -/
def next (l : Location) (c : Char) : Location :=
  if c = '\n' then ⟨l.line + 1, 1⟩ else ⟨l.line, l.column + 1⟩

/-- **Both counts go on with the text.** They are made from the end of the front part, where one of
them looks back, and yet one character adds one step. -/
theorem after_concat (front : List Char) (c : Char) :
    after (front ++ [c]) = (after front).next c := by
  by_cases h : c = '\n'
  · subst h
    simp [after, next]
  · simp [after, next, h]

/-! ## Complete lines -/

/-- Before a location are complete lines, each with the break that ends it, and a part of the next
line. How many there are and how long it is can be told from the location. -/
theorem exists_lines (front : List Char) :
    ∃ (lines : List (List Char)) (begun : List Char),
      front = lines.flatMap (· ++ ['\n']) ++ begun ∧ (∀ line ∈ lines, '\n' ∉ line) ∧
      '\n' ∉ begun ∧ after front = ⟨lines.length + 1, begun.length + 1⟩ := by
  induction front using List.reverseRecOn with
  | nil => exact ⟨[], [], rfl, by simp, by simp, rfl⟩
  | append_singleton front c ih =>
    obtain ⟨lines, begun, text, unbroken, unended, location⟩ := ih
    rw [after_concat, location]
    by_cases h : c = '\n'
    · -- The line that was begun is complete, and the next one is empty so far.
      subst h
      refine ⟨lines ++ [begun], [], ?_, ?_, by simp, by simp [next]⟩
      · simp [text]
      · intro line mem
        obtain mem | rfl := List.mem_append.1 mem |>.imp_right List.mem_singleton.1
        · exact unbroken line mem
        · exact unended
    · refine ⟨lines, begun ++ [c], ?_, unbroken, ?_, by simp [next, h]⟩
      · simp [text]
      · simp [unended, Ne.symm h]

/-! ## The order of locations -/

/-- The line first, and then the column. -/
def key (l : Location) : ℕ ×ₗ ℕ :=
  toLex (l.line, l.column)

/-- A line break raises the line, and any other character the column. So each character moves the
location on in lexicographic order. -/
theorem key_lt_key_next (l : Location) (c : Char) : l.key < (l.next c).key := by
  rw [key, key, Prod.Lex.toLex_lt_toLex]
  by_cases h : c = '\n'
  · left
    simp [next, h]
  · right
    simp [next, h]

/-- Who reads on stands further on. By induction from the right, as the last character read is the
last step. -/
theorem key_after_lt (front : List Char) {more : List Char} (nonempty : more ≠ []) :
    (after front).key < (after (front ++ more)).key := by
  induction more using List.reverseRecOn with
  | nil => exact absurd rfl nonempty
  | append_singleton more c ih =>
    rw [← List.append_assoc, after_concat]
    by_cases first : more = []
    · subst first
      rw [List.append_nil]
      exact key_lt_key_next _ c
    · exact (ih first).trans (key_lt_key_next _ c)

variable {text : List Char} {a b : Nat}

/-- Of two places, the one further on has the greater location. -/
theorem key_lt_of_lt (ha : IsPlace a text = true) (hb : IsPlace b text = true) (lt : a < b) :
    ∃ l m, ofOffset? text a = some l ∧ ofOffset? text b = some m ∧ l.key < m.key := by
  obtain ⟨front, back, rfl, rfl⟩ := isPlace_iff.1 ha
  obtain ⟨front', back', same, rfl⟩ := isPlace_iff.1 hb
  obtain ⟨more, nonempty, rfl⟩ := exists_append_of_byteLength_lt same lt
  refine ⟨after front, after (front ++ more), ofOffset?_append front back, ?_,
    key_after_lt front nonempty⟩
  rw [same]
  exact ofOffset?_append (front ++ more) back'

/-- Between two places stands at least one character, and it has moved the location on. -/
theorem ofOffset?_ne_of_lt (ha : IsPlace a text = true) (hb : IsPlace b text = true) (lt : a < b) :
    ofOffset? text a ≠ ofOffset? text b := by
  obtain ⟨l, m, hl, hm, further⟩ := key_lt_of_lt ha hb lt
  rw [hl, hm, ne_eq, Option.some.injEq]
  rintro rfl
  exact lt_irrefl _ further

/-- **A line and a column identify a place.** Before a place stand complete lines, one less than its
line, each ended by a break, and then characters without a break, one less than its column. Of two
places, the one further on has the greater line, or the greater column on the same line, so no two
places share both. An offset past the end has the location of the end. -/
theorem ofOffset?_identifies (text : List Char) :
    (∀ a, IsPlace a text = true → ∃ l front, ofOffset? text a = some l ∧
      takeBytes a text = some front ∧
      ∃ (lines : List (List Char)) (begun : List Char),
        front = lines.flatMap (· ++ ['\n']) ++ begun ∧ (∀ line ∈ lines, '\n' ∉ line) ∧
        '\n' ∉ begun ∧ l.line = lines.length + 1 ∧ l.column = begun.length + 1) ∧
    (∀ a b, IsPlace a text = true → IsPlace b text = true → a < b →
      ∃ l m, ofOffset? text a = some l ∧ ofOffset? text b = some m ∧
        toLex (l.line, l.column) < toLex (m.line, m.column)) ∧
    (∀ a b, IsPlace a text = true → IsPlace b text = true →
      ofOffset? text a = ofOffset? text b → a = b) ∧
    ∀ n, byteLength text ≤ n → ofOffset? text n = ofOffset? text (byteLength text) := by
  refine ⟨fun a ha => ?_, fun a b ha hb lt => key_lt_of_lt ha hb lt, fun a b ha hb shared => ?_,
    fun n beyond => ?_⟩
  · obtain ⟨front, back, rfl, rfl⟩ := isPlace_iff.1 ha
    obtain ⟨lines, begun, split, unbroken, unended, location⟩ := exists_lines front
    refine ⟨after front, front, ofOffset?_append front back, takeBytes_append front back, lines,
      begun, split, unbroken, unended, ?_, ?_⟩
    · rw [location]
    · rw [location]
  · by_contra different
    obtain lt | lt := Nat.lt_or_gt_of_ne different
    · exact ofOffset?_ne_of_lt ha hb lt shared
    · exact ofOffset?_ne_of_lt hb ha lt shared.symm
  · rw [ofOffset?, ofOffset?, Nat.min_eq_right beyond, Nat.min_self]

/-- Behind a character of two bytes the line ends, and the next line is empty. -/
theorem ofOffset?_identifies_empty_line :
    let text := ['ż', '\n', '\n', 'a']
    IsPlace 2 text = true ∧ IsPlace 3 text = true ∧ byteLength text ≤ 9 ∧
      ofOffset? text 2 = some ⟨1, 2⟩ ∧ ofOffset? text 3 = some ⟨2, 1⟩ ∧
      toLex (1, 2) < toLex (2, 1) ∧ ofOffset? text 9 = some ⟨3, 2⟩ := by
  intro text
  have place : IsPlace 2 text = true := by decide
  have place' : IsPlace 3 text = true := by decide
  have beyond : byteLength text ≤ 9 := by decide
  obtain ⟨-, ordered, -, clamped⟩ := ofOffset?_identifies text
  obtain ⟨l, m, hl, hm, lt⟩ := ordered 2 3 place place' (by decide)
  obtain rfl : l = ⟨1, 2⟩ := Option.some.inj (hl.symm.trans (by decide))
  obtain rfl : m = ⟨2, 1⟩ := Option.some.inj (hm.symm.trans (by decide))
  exact ⟨place, place', beyond, hl, hm, lt, (clamped 9 beyond).trans (by decide)⟩

end Location

end Descent.Text
