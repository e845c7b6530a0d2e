/-
The grammar of JSON.

Which texts are JSON is laid down by a grammar, and a text derives the value that it is
written for (`Derives`). There is nothing of reading in it. A number is an ASCII numeral
with a finite value. A string stands in double quotes, in which a backslash has one of six
characters behind it. The items of an array are a chain with commas, and so are the members
of an object. White space may stand around brackets, braces, commas and colons, and before
and after the whole text (`DerivesText`).

What is read of a text may have white space around it that belongs to no value, as
punctuation takes the white space beside it (`Padded`).
-/
import Descent.Proofs.Blanks
import Descent.Proofs.ChainReading
import Descent.Proofs.Token.Decimal
import Descent.Proofs.Token.Quoted
import Descent.Json.Value

set_option autoImplicit false

namespace Descent.Json

open Text

/-! ## The grammar -/

/-- The character, with any white space around it. -/
inductive Symbol (c : Char) : List Char → Unit → Prop
  | mk {w w' : List Char} (before : Blanks w) (after : Blanks w') : Symbol c (w ++ c :: w') ()

/-- Things with commas between them, in brackets. -/
inductive Bracketed {α : Type} (opening closing : Char) (P : List Char → α → Prop) :
    List Char → Chain α Unit → Prop
  | mk {w cs w' : List Char} {items : Chain α Unit} (before : Blanks w)
      (h : Chain.Spelled P (Symbol ',') cs items) (after : Blanks w') :
      Bracketed opening closing P (opening :: (w ++ (cs ++ (w' ++ [closing])))) items

/-- A key, a colon and a value, where `V` says how values are written. -/
inductive Member (V : List Char → Value → Prop) : List Char → String × Value → Prop
  | mk {key meant colon cs : List Char} {v : Value} (hkey : Token.Writes '"' key meant)
      (hcolon : Symbol ':' colon ()) (hv : V cs v) :
      Member V ('"' :: (key ++ '"' :: (colon ++ cs))) (String.ofList meant, v)

/-- The text is JSON for the value. -/
inductive Derives : List Char → Value → Prop
  | number {p : Numeral.Parts} (valid : p.Valid Char.isDigit)
      (finite : p.binary64.isFinite = true) : Derives p.text (.number p.binary64)
  | string {cs meant : List Char} (h : Token.Writes '"' cs meant) :
      Derives ('"' :: (cs ++ ['"'])) (.string (String.ofList meant))
  | bool (b : Bool) : Derives (if b then "true".toList else "false".toList) (.bool b)
  | null : Derives "null".toList .null
  | array {cs : List Char} {items : Chain Value Unit} (h : Bracketed '[' ']' Derives cs items) :
      Derives cs (.array items.terms)
  | object {cs : List Char} {members : Chain (String × Value) Unit}
      (h : Bracketed '\x7b' '\x7d' (Member Derives) cs members) :
      Derives cs (.object members.terms)

/-- Written as `P` says, with white space around it. -/
inductive Padded {α : Type} (P : List Char → α → Prop) : List Char → α → Prop
  | mk {w cs w' : List Char} {a : α} (before : Blanks w) (h : P cs a) (after : Blanks w') :
      Padded P (w ++ (cs ++ w')) a

/-- The whole text is JSON for the value, with white space allowed before and after it. -/
def DerivesText (text : List Char) (v : Value) : Prop :=
  Padded Derives text v

/-! ## How values begin -/

/-- A numeral begins with a sign or a digit, and so no other alternative for a value begins like a
number. -/
theorem exists_head_text {p : Numeral.Parts} (h : p.Valid isDecimalDigit) :
    ∃ c cs, p.text = c :: cs ∧ (Numeral.IsSign c ∨ isDecimalDigit c = true) := by
  cases hsign : p.sign with
  | some c => exact ⟨c, _, by rw [Numeral.Parts.text, hsign]; rfl, .inl (h.sign c hsign)⟩
  | none =>
    obtain ⟨c, cs, hwhole⟩ := List.exists_cons_of_ne_nil h.whole_ne_nil
    refine ⟨c, _, by rw [Numeral.Parts.text, hsign, Numeral.Parts.mantissa, hwhole]; rfl, .inr ?_⟩
    exact h.isDecimalDigit_whole c (hwhole ▸ List.mem_cons_self)

/-- A numeral begins with a digit or a sign, so it begins with no white space. -/
theorem isBlank_of_isDecimalDigit {c : Char} (h : isDecimalDigit c = true) : isBlank c = false := by
  by_contra hc
  rw [isDecimalDigit_of_isBlank (by simpa using hc)] at h
  cases h

/-- No value begins with white space, so where white space is skipped before a value, the value
itself is ahead. -/
theorem Derives.exists_head {cs : List Char} {v : Value} (h : Derives cs v) :
    ∃ c ds, cs = c :: ds ∧ isBlank c = false := by
  cases h with
  | number valid =>
    obtain ⟨c, cs, heq, hc⟩ :=
      exists_head_text (valid.mono fun c => Numeral.isDecimalDigit_of_isDigit)
    refine ⟨c, cs, heq, ?_⟩
    rcases hc with (rfl | rfl) | hc
    · decide
    · decide
    · exact isBlank_of_isDecimalDigit hc
  | string => exact ⟨_, _, rfl, by decide⟩
  | bool b => cases b <;> exact ⟨_, _, rfl, by decide⟩
  | null => exact ⟨_, _, rfl, by decide⟩
  | array h =>
    cases h
    exact ⟨_, _, rfl, by decide⟩
  | object h =>
    cases h
    exact ⟨_, _, rfl, by decide⟩

/-! ## White space around parts -/

variable {α : Type} {P : List Char → α → Prop}

/-- The white space around the terms of a chain is around its separators, but for some before
the first and behind the last. -/
theorem Padded.spelled {c : Char} {cs : List Char} {items : Chain α Unit}
    (h : Chain.Spelled (Padded P) (Symbol c) cs items) :
    Padded (Chain.Spelled P (Symbol c)) cs items := by
  -- What is left over behind a term goes to the separator after it.
  have row {cs : List Char} {links : List (Unit × α)}
      (h : Row (Chain.Link (Padded P) (Symbol c)) cs links) :
      ∀ w, Blanks w → ∃ ds w', w ++ cs = ds ++ w' ∧ Blanks w' ∧
        Row (Chain.Link P (Symbol c)) ds links := by
    induction h with
    | nil => exact fun w hw => ⟨[], w, by simp, hw, .nil⟩
    | cons hlink _ ih =>
      intro w hw
      obtain ⟨⟨hbefore, hafter⟩, ⟨hbefore', hP, hafter'⟩⟩ := hlink
      obtain ⟨ds, w', heq, hw', hds⟩ := ih _ hafter'
      refine ⟨_, w', ?_, hw', .cons (.mk (.mk (hw.append hbefore) (hafter.append hbefore')) hP) hds⟩
      simp only [List.append_assoc, List.cons_append, heq]
  cases h with
  | empty =>
    -- The empty text, cut in three.
    show Padded (Chain.Spelled P (Symbol c)) ([] ++ ([] ++ [])) .empty
    exact .mk .nil .empty .nil
  | links hhead htail =>
    obtain ⟨hbefore, hP, hafter⟩ := hhead
    obtain ⟨ds, w', heq, hw', hds⟩ := row htail _ hafter
    have all := Padded.mk hbefore (Chain.Spelled.links hP hds) hw'
    simp only [List.append_assoc, ← heq] at all ⊢
    exact all

/-- White space before the value of a member belongs to the colon. -/
theorem Padded.member {V : List Char → Value → Prop} {cs : List Char} {m : String × Value}
    (h : Member (Padded V) cs m) : Padded (Member V) cs m := by
  obtain ⟨hkey, ⟨hbefore, hafter⟩, ⟨hbefore', hV, hafter'⟩⟩ := h
  have colon := Symbol.mk (c := ':') hbefore (hafter.append hbefore')
  have all := Padded.mk .nil (Member.mk hkey colon hV) hafter'
  simpa only [List.nil_append, List.append_assoc, List.cons_append] using all

end Descent.Json
