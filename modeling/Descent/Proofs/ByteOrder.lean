/-
The order of texts and the order of their bytes.

Texts are compared by the code points of their characters. The bytes of UTF-8 are in the same
order (`lt_iff_utf8_lt`). That is so because a character with more bytes has a greater
first byte, and with as many bytes the code point is spread over them with its highest digit
first (`spread`).
-/
import Mathlib.Algebra.Ring.Nat

set_option autoImplicit false

namespace Descent.Text

/-- The bytes of a text in UTF-8. -/
def utf8 (cs : List Char) : List UInt8 :=
  cs.flatMap String.utf8EncodeChar

/-- The bytes of a text as the library has them, in an array, are those of its characters in a row.
-/
theorem utf8_eq (s : String) : s.toUTF8.data.toList = utf8 s.toList := by
  rw [← s.ofList_toList, String.toUTF8_eq_toByteArray, String.toByteArray_ofList, List.utf8Encode,
    List.data_toByteArray, String.toList_ofList]
  rfl

/-! ## Characters -/

/-- A number in so many digits of base 64 and one before them, which is added to the first byte. -/
def spread (lead : Nat) : Nat → Nat → List UInt8
  | 0, n => [UInt8.ofNat (n + lead)]
  | k + 1, n => spread lead k (n / 64) ++ [UInt8.ofNat (n % 64 + 128)]

/-- Bytes are compared as the numbers that they hold, if these are small enough to be held. -/
theorem byte_lt {m n : Nat} (h : m < n) (hn : n < 256) : UInt8.ofNat m < UInt8.ofNat n := by
  rw [UInt8.lt_iff_toNat_lt, UInt8.toNat_ofNat', UInt8.toNat_ofNat']
  omega

/-- The first byte is the first digit. It decides between texts, so it has to be told without
writing out the others. -/
theorem exists_spread_eq (lead k n : Nat) :
    ∃ bytes, spread lead k n = UInt8.ofNat (n / 64 ^ k + lead) :: bytes := by
  induction k generalizing n with
  | zero => exact ⟨[], by rw [spread, Nat.pow_zero, Nat.div_one]⟩
  | succ k ih =>
    obtain ⟨bytes, h⟩ := ih (n / 64)
    refine ⟨bytes ++ [UInt8.ofNat (n % 64 + 128)], ?_⟩
    rw [spread, h, Nat.div_div_eq_div_mul, Nat.pow_succ', List.cons_append]

/-- By induction on the digits: where the higher ones differ they decide, and where they are the
same the last one does. What follows makes no difference. -/
theorem spread_append_lt {lead k m n : Nat} (h : m < n) (hn : n / 64 ^ k + lead < 256)
    (s t : List UInt8) : spread lead k m ++ s < spread lead k n ++ t := by
  induction k generalizing m n s t with
  | zero =>
    rw [Nat.pow_zero, Nat.div_one] at hn
    exact List.cons_lt_cons_iff.2 (.inl (byte_lt (Nat.add_lt_add_right h lead) hn))
  | succ k ih =>
    rw [Nat.pow_succ', ← Nat.div_div_eq_div_mul] at hn
    simp only [spread, List.append_assoc]
    -- Either the digits before the last one differ, or the last one does.
    rcases Nat.lt_or_ge (m / 64) (n / 64) with before | before
    · exact ih before hn _ _
    · have same : m / 64 = n / 64 := by omega
      have last : m % 64 < n % 64 := by omega
      rw [same]
      refine List.append_left_lt ?_
      exact List.cons_lt_cons_iff.2 (.inl (byte_lt (by omega) (by omega)))

/-- Numbers in different ranges differ in their first byte, so what follows it plays no part, not
even how many bytes that is. -/
theorem spread_append_lt_of_head {lead lead' k k' m n : Nat}
    (h : m / 64 ^ k + lead < n / 64 ^ k' + lead') (hn : n / 64 ^ k' + lead' < 256)
    (s t : List UInt8) : spread lead k m ++ s < spread lead' k' n ++ t := by
  obtain ⟨_, hm⟩ := exists_spread_eq lead k m
  obtain ⟨_, hn'⟩ := exists_spread_eq lead' k' n
  rw [hm, hn', List.cons_append, List.cons_append]
  exact List.cons_lt_cons_iff.2 (.inl (byte_lt h hn))

/-- What is added to the first byte, and the number of further bytes. -/
def form (n : Nat) : Nat × Nat :=
  if n ≤ 0x7f then (0, 0)
  else if n ≤ 0x7ff then (0xc0, 1)
  else if n ≤ 0xffff then (0xe0, 2)
  else (0xf0, 3)

/-- Code points end where four bytes do, which bounds the first byte of each form. -/
theorem toNat_lt (c : Char) : c.toNat < 0x110000 := by
  have valid : c.toNat.isValidChar := c.valid
  rw [Nat.isValidChar] at valid
  omega

/-- The four cases of UTF-8 are one, with what is added to the first byte and the number of the
others as parameters. -/
theorem utf8EncodeChar_eq (c : Char) :
    String.utf8EncodeChar c = spread (form c.toNat).1 (form c.toNat).2 c.toNat := by
  have bound : c.val.toNat < 0x110000 := toNat_lt c
  show _ = spread (form c.val.toNat).1 (form c.val.toNat).2 c.val.toNat
  rw [String.utf8EncodeChar]
  generalize c.val.toNat = n at bound ⊢
  have two : n / 4096 = n / 64 / 64 := by omega
  have three : n / 262144 = n / 64 / 64 / 64 := by omega
  rw [form]
  -- The first digit is within its range, so nothing is lost of it.
  split_ifs
  · rfl
  · rw [Nat.mod_eq_of_lt (by omega : n / 64 < 32)]
    rfl
  · rw [Nat.mod_eq_of_lt (by omega : n / 4096 < 16), two]
    rfl
  · rw [Nat.mod_eq_of_lt (by omega : n / 262144 < 8), three, two]
    rfl

/-- The first byte is a byte: what is added to the first digit leaves room for it, up to the last
code point. -/
theorem form_bound {n : Nat} (h : n < 0x110000) : n / 64 ^ (form n).2 + (form n).1 < 256 := by
  rw [form]
  split_ifs <;> simp only [Nat.reducePow] <;> omega

/-- A greater number has the same form, or a greater first byte. -/
theorem form_of_lt {m n : Nat} (h : m < n) :
    form m = form n ∨ m / 64 ^ (form m).2 + (form m).1 < n / 64 ^ (form n).2 + (form n).1 := by
  rw [form, form]
  split_ifs <;> first
    | exact .inl rfl
    | exact .inr (by simp only [Nat.reducePow]; omega)

/-- Characters are in the order of their bytes, with anything behind them. No bytes of a character
begin those of another one. -/
theorem utf8EncodeChar_append_lt {c d : Char} (h : c < d) (s t : List UInt8) :
    String.utf8EncodeChar c ++ s < String.utf8EncodeChar d ++ t := by
  have lt : c.toNat < d.toNat := h
  have bound := form_bound (toNat_lt d)
  rw [utf8EncodeChar_eq, utf8EncodeChar_eq]
  rcases form_of_lt lt with same | head
  · rw [same]
    exact spread_append_lt lt bound s t
  · exact spread_append_lt_of_head head bound s t

/-! ## Texts -/

/-- A character has at least one byte. So where one of two texts goes on and the other has ended,
the bytes of the first go on as well. -/
theorem utf8_cons_ne_nil (c : Char) (cs : List Char) : utf8 (c :: cs) ≠ [] := by
  simp [utf8, String.utf8EncodeChar_ne_nil]

/-- By induction along the two texts up to the character in which they differ. The other direction
follows, as one of two different texts is the less. -/
theorem utf8_lt {cs ds : List Char} (h : cs < ds) : utf8 cs < utf8 ds := by
  induction cs generalizing ds with
  | nil =>
    cases ds with
    | nil => exact absurd h (List.lt_irrefl [])
    | cons d ds =>
      obtain ⟨b, bytes, hbytes⟩ := List.exists_cons_of_ne_nil (utf8_cons_ne_nil d ds)
      rw [hbytes]
      exact List.nil_lt_cons b bytes
  | cons c cs ih =>
    cases ds with
    | nil => exact absurd h (List.not_lt_nil _)
    | cons d ds =>
      rw [utf8, utf8, List.flatMap_cons, List.flatMap_cons]
      rcases List.cons_lt_cons_iff.1 h with head | ⟨rfl, tail⟩
      · exact utf8EncodeChar_append_lt head _ _
      · exact List.append_left_lt (ih tail)

/-- **Texts are in the order of their bytes.** So whoever compares bytes, as sorting by key may do,
finds the order of characters. -/
theorem lt_iff_utf8_lt (s t : String) :
    s < t ↔ s.toUTF8.data.toList < t.toUTF8.data.toList := by
  rw [utf8_eq, utf8_eq]
  constructor
  · exact utf8_lt
  · intro h
    -- The order of texts is total, and the others would put the bytes the other way.
    by_contra lt
    by_cases same : s = t
    · rw [same] at h
      exact List.lt_irrefl _ h
    · have gt : t < s := Std.lt_of_le_of_ne (Std.not_lt.1 lt) (Ne.symm same)
      exact List.lt_asymm h (utf8_lt gt)

end Descent.Text
