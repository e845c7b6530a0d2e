/-
Quoted texts in one pass.

A quoted text is read in two passes with a table of escapes each: a pattern finds where it
ends, and what it found is gone through again, without its quotes, to put every escape's
meaning in its place. The second pass takes any character behind a backslash, and has an
answer for a backslash with nothing behind it.

The two together are the one scan that goes from the first quote to the next one that no
backslash stands before, and notes on the way what it reads means (`scan`). Both the scan and
the pattern stop where the text that the quotes enclose was written to its end (`Writes`), so
they stop together, and the second pass never meets what the first would have refused.
-/
import Descent.Proofs.Places

set_option autoImplicit false

namespace Descent.Token

open Text

/-! ## The scan -/

/-- Scans from behind the first quote up to the next one that no backslash stands before. The
result is what was read, that quote with it, and what it means. A backslash with something else
behind it than an escape's letter ends the scan without a result, and so does the end. -/
def scanBody (quote : Char) : List Char → Option (List Char × List Char)
  | [] => none
  | c :: cs =>
    if c = quote then some ([c], [])
    else if c = '\\' then
      match cs with
      | [] => none
      | e :: cs => do
        let d ← escape? quote e
        let (read, meant) ← scanBody quote cs
        some (c :: e :: read, d :: meant)
    else do
      let (read, meant) ← scanBody quote cs
      some (c :: read, c :: meant)

/-- Scans a quoted text that begins here: what was read, and what it means. -/
def scan (quote : Char) : List Char → Option (List Char × List Char)
  | [] => none
  | c :: cs =>
    if c = quote then (scanBody quote cs).map fun (read, meant) => (c :: read, meant) else none

variable {quote : Char} {cs read meant : List Char}

/-- The scan ends at the quote, whatever is behind it. The three equations spare later proofs the
definition. -/
theorem scanBody_quote (quote : Char) (cs : List Char) :
    scanBody quote (quote :: cs) = some ([quote], []) := by
  rw [scanBody.eq_def]
  exact if_pos rfl

/-- A plain character is read as it is, and the scan goes on. -/
theorem scanBody_plain {c : Char} (hquote : c ≠ quote) (hbackslash : c ≠ '\\') (cs : List Char) :
    scanBody quote (c :: cs) =
      (scanBody quote cs).map fun (read, meant) => (c :: read, c :: meant) := by
  rw [scanBody.eq_def]
  dsimp only
  rw [if_neg hquote, if_neg hbackslash]
  cases scanBody quote cs <;> rfl

/-- An escape is read as two characters and means one. The letter behind the backslash may be the
quote, which then does not end the scan. -/
theorem scanBody_escape (hquote : quote ≠ '\\') {e d : Char} (he : escape? quote e = some d)
    (cs : List Char) :
    scanBody quote ('\\' :: e :: cs) =
      (scanBody quote cs).map fun (read, meant) => ('\\' :: e :: read, d :: meant) := by
  rw [scanBody.eq_def]
  dsimp only
  rw [if_neg hquote.symm, if_pos rfl, he]
  cases scanBody quote cs <;> rfl

/-! ## What the scan reads is written between quotes -/

/-- What is written is scanned, up to the quote behind it. -/
theorem scanBody_of_writes (hquote : quote ≠ '\\') (h : Writes quote cs meant)
    (rest : List Char) :
    scanBody quote (cs ++ quote :: rest) = some (cs ++ [quote], meant) := by
  induction h with
  | nil => exact scanBody_quote quote rest
  | plain hc hbackslash _ ih => rw [List.cons_append, scanBody_plain hc hbackslash, ih]; rfl
  | escape he _ ih => rw [List.cons_append, List.cons_append, scanBody_escape hquote he, ih]; rfl

/-- What was scanned is written, up to the quote behind it. -/
theorem writes_of_scanBody (h : scanBody quote cs = some (read, meant)) :
    ∃ body rest, read = body ++ [quote] ∧ cs = body ++ quote :: rest ∧ Writes quote body meant := by
  fun_induction scanBody quote cs generalizing read meant with
  | case1 => cases h
  | case2 cs =>
    cases h
    exact ⟨[], cs, rfl, rfl, .nil⟩
  | case3 => cases h
  | case4 e cs _ ih =>
    rw [Option.bind_eq_bind, Option.bind_eq_some_iff] at h
    obtain ⟨d, he, h⟩ := h
    rw [Option.bind_eq_bind, Option.bind_eq_some_iff] at h
    obtain ⟨⟨read', meant'⟩, hread, h⟩ := h
    cases h
    obtain ⟨body, rest, rfl, rfl, written⟩ := ih hread
    exact ⟨'\\' :: e :: body, rest, rfl, rfl, .escape he written⟩
  | case5 c cs hc hbackslash ih =>
    rw [Option.bind_eq_bind, Option.bind_eq_some_iff] at h
    obtain ⟨⟨read', meant'⟩, hread, h⟩ := h
    cases h
    obtain ⟨body, rest, rfl, rfl, written⟩ := ih hread
    exact ⟨c :: body, rest, rfl, rfl, .plain hc hbackslash written⟩

/-- **What is scanned is what is written between quotes**, up to the quote that ends it. -/
theorem scan_eq_some_iff (hquote : quote ≠ '\\') {found : List Char} :
    scan quote cs = some (found, meant) ↔
      ∃ body rest, Writes quote body meant ∧ found = quote :: (body ++ [quote]) ∧
        cs = quote :: (body ++ quote :: rest) := by
  constructor
  · intro h
    cases cs with
    | nil => cases h
    | cons c cs =>
      by_cases hc : c = quote
      · subst hc
        rw [scan, if_pos rfl, Option.map_eq_some_iff] at h
        obtain ⟨⟨read, meant'⟩, hread, h⟩ := h
        cases h
        obtain ⟨body, rest, rfl, rfl, written⟩ := writes_of_scanBody hread
        exact ⟨body, rest, written, rfl, rfl⟩
      · rw [scan, if_neg hc] at h
        cases h
  · rintro ⟨body, rest, written, rfl, rfl⟩
    rw [scan, if_pos rfl, scanBody_of_writes hquote written]
    rfl

/-- A backslash that is written does not hide the quote behind it. -/
example : scan '"' "\"ż\\\\\"\"".toList = some ("\"ż\\\\\"".toList, "ż\\".toList) := by
  decide

/-! ## The second pass -/

/-- The text with its escapes replaced, if no backslash stands at its end. -/
def unescape? : List Char → Option (List Char)
  | [] => some []
  | ['\\'] => none
  | '\\' :: c :: cs => (unescape? cs).map (escaped c :: ·)
  | c :: cs => (unescape? cs).map (c :: ·)

/-- A plain character stays, as in the pass that has an answer for everything. -/
theorem unescape?_plain {c : Char} (h : c ≠ '\\') (cs : List Char) :
    unescape? (c :: cs) = (unescape? cs).map (c :: ·) := by
  rw [unescape?]
  · exact fun hc _ => h hc
  · exact fun _ _ hc _ => h hc

/-- In a text that is written between quotes each backslash has its letter, so the second pass needs
no answer for one without. -/
theorem Writes.unescape?_eq (h : Writes quote cs meant) : unescape? cs = some meant := by
  induction h with
  | nil => rfl
  | plain _ hbackslash _ ih => rw [unescape?_plain hbackslash, ih, Option.map_some]
  | escape he _ ih => rw [unescape?, ih, Option.map_some, escaped_eq he]

/-! ## The two passes are the scan -/

/-- The kinds of quotes. -/
inductive Quotation where
  | double
  | single

namespace Quotation

variable {Γ : Scope}

/-- The quote itself. -/
def mark : Quotation → Char
  | double => '"'
  | single => '\''

/-- The pattern of texts in such quotes. -/
def pattern : Quotation → Pattern
  | double => doubleQuotedPattern
  | single => singleQuotedPattern

/-- The parser of texts in such quotes. -/
def parser : Quotation → Parser Γ String
  | double => doubleQuoted
  | single => singleQuoted

variable (q : Quotation)

/-- No quote is a backslash, so the cases of the scan do not overlap. -/
theorem mark_ne_backslash : q.mark ≠ '\\' := by
  cases q <;> decide

/-- Both patterns are the one expression, with their quote in it. -/
theorem pattern_find?_eq (cs : List Char) :
    q.pattern.find? cs = (quotedRegex q.mark).first Match.accept none cs := by
  cases q with
  | double => exact doubleQuotedPattern_find?_eq cs
  | single => exact singleQuotedPattern_find?_eq cs

/-- The two passes as the tokens make them: the pattern is matched, and what it found is gone
through again. -/
theorem parser_run (limits : Limits) (ρ : Environment Γ) (s : State) :
    q.parser.rule.run limits ρ s =
      (State.matchPattern q.pattern s).map fun found =>
        String.ofList (unescape (inner found.toList)) := by
  cases q <;> rfl

/-- The pattern finds what the scan reads. Both are what is written between quotes, so neither is
followed in terms of the other. -/
theorem pattern_find?_eq_scan (cs : List Char) :
    q.pattern.find? cs = (scan q.mark cs).map Prod.fst := by
  rw [pattern_find?_eq]
  apply Option.ext
  intro found
  rw [quoted_first_eq_some_iff q.mark_ne_backslash, Option.map_eq_some_iff]
  constructor
  · rintro ⟨body, meant, rest, h⟩
    exact ⟨(found, meant), (scan_eq_some_iff q.mark_ne_backslash).2 ⟨body, rest, h⟩, rfl⟩
  · rintro ⟨⟨_, meant⟩, h, rfl⟩
    obtain ⟨body, rest, h⟩ := (scan_eq_some_iff q.mark_ne_backslash).1 h
    exact ⟨body, meant, rest, h⟩

/-- What was found means what the scan says, by the second pass. -/
theorem unescape?_inner {cs found meant : List Char} (h : scan q.mark cs = some (found, meant)) :
    unescape? (inner found) = some meant ∧ unescape (inner found) = meant := by
  obtain ⟨body, rest, written, rfl, -⟩ := (scan_eq_some_iff q.mark_ne_backslash).1 h
  rw [inner_quoted]
  exact ⟨written.unescape?_eq, written.unescape_eq⟩

/-- **A quoted text is read as by one scan.** Where the scan has a result, the token has it; where
it has none, the token fails and says where. All cuts that the two passes make are at places. -/
theorem run_eq_scan (limits : Limits) (ρ : Environment Γ) (s : State) :
    (q.parser.rule.run limits ρ s = s.withAhead fun cs =>
      match scan q.mark cs with
      | some (read, meant) => .done (String.ofList meant) (s.advance read)
      | none => .failed { s with failure := {
          kind := .patternMismatch
          reason := (Cause.noMatch q.pattern.source).message
          position := s.cursor } }) ∧
    ∀ cs found, q.pattern.find? cs = some found →
      slice? found 1 (byteLength found - 1) = some (inner found) ∧
        unescape? (inner found) = some (unescape (inner found)) := by
  constructor
  · rw [parser_run, State.matchPattern, State.withAhead, State.withAhead]
    cases s.ahead? with
    | none => rfl
    | some cs =>
      dsimp only
      rw [pattern_find?_eq_scan]
      cases hscan : scan q.mark cs with
      | none => rfl
      | some result =>
        obtain ⟨found, meant⟩ := result
        rw [← (q.unescape?_inner hscan).2]
        simp [Run.map, Run.andThen]
  · intro cs found h
    constructor
    · exact slice?_quoted (by cases q <;> simp [pattern]) h
    · rw [pattern_find?_eq_scan, Option.map_eq_some_iff] at h
      obtain ⟨⟨_, meant⟩, hscan, rfl⟩ := h
      obtain ⟨strict, plain⟩ := q.unescape?_inner hscan
      rw [strict, plain]

end Quotation

end Descent.Token
