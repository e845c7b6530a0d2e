/-
Reading the source of a pattern.

The source is read once, from left to right, group by group. Within a group a branch
is a list of items; `|` begins the next branch, and a repetition sign takes the last
item. Options such as `(?i)` hold from where they stand to the end of their group, also
in later branches.

A source is refused when a group or a class stays open or a parenthesis closes none,
when a repetition sign has nothing to repeat, when a count is malformed or runs
backwards, when a range does, and when an escape means nothing. A `]` or a `}` that
closes nothing stands for itself.

Some forms that are usual elsewhere are not read, and a source with one of them is refused:
classes by a Unicode property (`\p` and `\P`), the edges at one side of a word (`\<`, `\>` and
`\b` with a name in braces), and the options `x` for sources with comments, `R` for line breaks
of two characters and `-u` for bytes. No source is refused for its size or for its depth.
-/
import Descent.Pattern.Regex

set_option autoImplicit false

namespace Descent.Regex

open Text

/-! ## Options -/

/-- The options that a source can set. -/
structure Options where
  /-- Upper and lower case are the same. -/
  ignoreCase : Bool := false
  /-- The dot reads a line break too. -/
  dotAll : Bool := false
  /-- `^` and `$` hold at every line. -/
  multiline : Bool := false
  /-- Repetitions are lazy, and greedy with a question mark. -/
  swapGreed : Bool := false

namespace Options

/-- Sets the option that goes by the letter. -/
def set? (o : Options) (on : Bool) : Char → Option Options
  | 'i' => some { o with ignoreCase := on }
  | 's' => some { o with dotAll := on }
  | 'm' => some { o with multiline := on }
  | 'U' => some { o with swapGreed := on }
  | 'u' => if on then some o else none
  | _ => none

/-- The characters that stand where the set is written. -/
def charSet (o : Options) (s : CharSet) : CharSet :=
  if o.ignoreCase then .caseless s else s

/-- The characters that stand where the character is written. -/
def charsOf (o : Options) (c : Char) : CharSet :=
  if caseVariants c = [c] then .single c else o.charSet (.single c)

/-- Reads letters up to `:` or `)`, with a `-` before those to unset. No letter stands
twice, and letters follow the `-`. Also says whether anything was set. -/
def read (o : Options) (seen : List Char) (on dangling : Bool) :
    List Char → Option (Options × Bool × List Char)
  | [] => none
  | c :: cs =>
    if c == ':' || c == ')' then
      if dangling then none else some (o, !seen.isEmpty, c :: cs)
    else if c == '-' then
      if on then o.read seen false true cs else none
    else if seen.contains c then none
    else do (← o.set? on c).read (c :: seen) on false cs

end Options

/-! ## Escapes -/

/-- What a backslash sequence stands for. -/
inductive Escape where
  | char (c : Char)
  | set (s : CharSet)
  | assertion (a : Assertion)

/-- The value of a hexadecimal digit. -/
def hexDigit? (c : Char) : Option Nat :=
  if '0' ≤ c && c ≤ '9' then some (c.toNat - '0'.toNat)
  else if 'a' ≤ c && c ≤ 'f' then some (c.toNat - 'a'.toNat + 10)
  else if 'A' ≤ c && c ≤ 'F' then some (c.toNat - 'A'.toNat + 10)
  else none

/-- The character with the code that the hexadecimal digits spell. -/
def hexChar? (digits : List Char) : Option Char := do
  guard (!digits.isEmpty)
  let code := (← digits.mapM hexDigit?).foldl (16 * · + ·) 0
  if code.isValidChar then some (Char.ofNat code) else none

/-- Reads a code of exactly `width` digits, or of any number within braces. -/
def readHex (width : Nat) : List Char → Option (Char × List Char)
  | '\x7b' :: cs =>
    match cs.span (· != '\x7d') with
    | (digits, _ :: cs) => do some (← hexChar? digits, cs)
    | (_, []) => none
  | cs => do
    guard (width ≤ cs.length)
    some (← hexChar? (cs.take width), cs.drop width)

/-- A character that a backslash leaves as it is: in ASCII, all but letters, digits and
angle brackets. -/
def isEscapable (c : Char) : Bool :=
  c.toNat < 0x80 && !c.isAlphanum && c != '<' && c != '>'

/-- Reads what follows a backslash. -/
def readEscape : List Char → Option (Escape × List Char)
  | [] => none
  | c :: cs =>
    match c with
    | 'd' => some (.set .digit, cs)
    | 'D' => some (.set (.compl .digit), cs)
    | 's' => some (.set .blank, cs)
    | 'S' => some (.set (.compl .blank), cs)
    | 'w' => some (.set .word, cs)
    | 'W' => some (.set (.compl .word), cs)
    | 'b' => some (.assertion .wordEdge, cs)
    | 'B' => some (.assertion .noWordEdge, cs)
    | 'A' => some (.assertion .textStart, cs)
    | 'z' => some (.assertion .textEnd, cs)
    | 'n' => some (.char '\n', cs)
    | 't' => some (.char '\t', cs)
    | 'r' => some (.char '\r', cs)
    | 'a' => some (.char '\x07', cs)
    | 'v' => some (.char '\x0b', cs)
    | 'f' => some (.char '\x0c', cs)
    | 'x' => (readHex 2 cs).map fun (c, cs) => (.char c, cs)
    | 'u' => (readHex 4 cs).map fun (c, cs) => (.char c, cs)
    | 'U' => (readHex 8 cs).map fun (c, cs) => (.char c, cs)
    | _ => if isEscapable c then some (.char c, cs) else none

/-! ## Classes -/

/-- Reads one member of a class: a character, or a class of its own by an escape. -/
def readMember : List Char → Option ((Char ⊕ CharSet) × List Char)
  | [] => none
  | '\\' :: cs => do
    match ← readEscape cs with
    | (.char c, cs) => some (.inl c, cs)
    | (.set s, cs) => some (.inr s, cs)
    | (.assertion _, _) => none
  | c :: cs => some (.inl c, cs)

/-- Reads a member or a range. A `-` makes a range unless it stands before the closing
bracket or before another `-`. -/
def readRange (o : Options) (cs : List Char) : Option (CharSet × List Char) := do
  let (first, cs) ← readMember cs
  let alone : Option (CharSet × List Char) :=
    match first with
    | .inl c => some (o.charsOf c, cs)
    | .inr s => some (s, cs)
  match cs with
  | [] => none
  | '-' :: ']' :: _ => alone
  | '-' :: '-' :: _ => alone
  | '-' :: cs =>
    match first, ← readMember cs with
    | .inl c, (.inl d, cs) => if c ≤ d then some (o.charSet (.range c d), cs) else none
    | _, _ => none
  | _ => alone

/-- The ranges of ASCII characters that go by a name. -/
def namedRanges : List (String × List (Char × Char)) :=
  [("alnum", [('0', '9'), ('A', 'Z'), ('a', 'z')]),
   ("alpha", [('A', 'Z'), ('a', 'z')]),
   ("ascii", [('\x00', '\x7F')]),
   ("blank", [('\t', '\t'), (' ', ' ')]),
   ("cntrl", [('\x00', '\x1F'), ('\x7F', '\x7F')]),
   ("digit", [('0', '9')]),
   ("graph", [('!', '~')]),
   ("lower", [('a', 'z')]),
   ("print", [(' ', '~')]),
   ("punct", [('!', '/'), (':', '@'), ('[', '\x60'), ('\x7b', '~')]),
   ("space", [('\t', '\r'), (' ', ' ')]),
   ("upper", [('A', 'Z')]),
   ("word", [('0', '9'), ('A', 'Z'), ('_', '_'), ('a', 'z')]),
   ("xdigit", [('0', '9'), ('A', 'F'), ('a', 'f')])]

/-- The class by a name, when what stands within its brackets is one: the name between two
colons. A `^` before it takes all other characters, case being ignored before that is done. -/
def namedClass? (o : Options) (inside : List Char) : Option CharSet := do
  let (negated, inside) :=
    match inside with
    | ':' :: '^' :: cs => (true, cs)
    | ':' :: cs => (false, cs)
    | _ => (false, [])
  let (name, colon) := inside.span (· != ':')
  guard (colon == [':'])
  let ranges ← namedRanges.lookup (String.ofList name)
  let s := o.charSet (ranges.foldr (fun (first, last) => .union (.range first last)) .none)
  some (if negated then .compl s else s)

/-- What stands before the next closing bracket, and what stands behind that. -/
def readToBracket (cs : List Char) : Option (List Char × List Char) :=
  match cs.span (· != ']') with
  | (inside, _ :: cs) => some (inside, cs)
  | (_, []) => none

/-- What has been read of a class: how what was before the last operator combines with
what comes after it, and what has come after it so far. -/
structure OpenClass where
  negated : Bool
  combine : CharSet → CharSet := id
  current : CharSet := .none

namespace OpenClass

/-- One more part. -/
def add (k : OpenClass) (s : CharSet) : OpenClass :=
  { k with current := if k.current = .none then s else .union k.current s }

/-- An operator between what was read and what follows. -/
def operator (k : OpenClass) (f : CharSet → CharSet → CharSet) : OpenClass :=
  { k with combine := f (k.combine k.current), current := .none }

/-- The class once it is closed. -/
def close (k : OpenClass) : CharSet :=
  let s := k.combine k.current
  if k.negated then .compl s else s

/-- Reads what stands at the beginning of a class, where `^` negates it and each `-`, or
else a `]`, stands for itself. -/
def ofOpening (o : Options) (cs : List Char) : OpenClass × List Char :=
  let (negated, cs) :=
    match cs with
    | '^' :: cs => (true, cs)
    | cs => (false, cs)
  let k : OpenClass := { negated := negated }
  match cs with
  | '-' :: cs => (k.add (o.charsOf '-'), cs.dropWhile (· == '-'))
  | ']' :: cs => (k.add (o.charsOf ']'), cs)
  | cs => (k, cs)

end OpenClass

/-- Reads the rest of a class, up to the bracket that closes it. A bracket inside opens a
class that is part of this one: by a name, or else, if there is no class of that name, by its
members. -/
def readClass (o : Options) : Nat → OpenClass → List Char → Option (CharSet × List Char)
  | 0, _, _ => none
  | fuel + 1, k, cs =>
    match cs with
    | [] => none
    | ']' :: cs => some (k.close, cs)
    | '[' :: cs => do
      let (inside, behind) ← readToBracket cs
      match namedClass? o inside with
      | some s => readClass o fuel (k.add s) behind
      | none =>
        let (inner, cs) := OpenClass.ofOpening o cs
        let (s, cs) ← readClass o fuel inner cs
        readClass o fuel (k.add s) cs
    | '&' :: '&' :: cs => readClass o fuel (k.operator .inter) cs
    | '-' :: '-' :: cs => readClass o fuel (k.operator .diff) cs
    | '~' :: '~' :: cs =>
      readClass o fuel (k.operator fun s t => .union (.diff s t) (.diff t s)) cs
    | cs => do
      let (s, cs) ← readRange o cs
      readClass o fuel (k.add s) cs

/-! ## Counts -/

/-- Reads a number below 2³², with white space around it. -/
def readNumber (cs : List Char) : Option (Nat × List Char) :=
  let (digits, cs) := (cs.dropWhile isBlank).span Char.isDigit
  let n := digits.foldl (fun n c => 10 * n + (c.toNat - '0'.toNat)) 0
  if digits.isEmpty || 0x100000000 ≤ n then none else some (n, cs.dropWhile isBlank)

/-- Reads a count up to its closing brace: a number, a least number, or both bounds. -/
def readCount (cs : List Char) : Option (Nat × Option Nat × List Char) := do
  let (least, cs) ← readNumber cs
  match cs with
  | '\x7d' :: cs => some (least, some least, cs)
  | ',' :: '\x7d' :: cs => some (least, none, cs)
  | ',' :: cs =>
    let (most, cs) ← readNumber cs
    match cs with
    | '\x7d' :: cs => if least ≤ most then some (least, some most, cs) else none
    | _ => none
  | _ => none

/-! ## Groups -/

/-- What has been read of a group. -/
structure OpenGroup where
  options : Options
  /-- The branches before the current one, the latest first. -/
  branches : List Regex := []
  /-- The items of the current branch, the latest first. -/
  items : List Regex := []
  /-- The last thing read can be repeated. -/
  repeatable : Bool := false

namespace OpenGroup

/-- One more item. -/
def add (g : OpenGroup) (r : Regex) : OpenGroup :=
  { g with items := r :: g.items, repeatable := true }

/-- The next branch. -/
def nextBranch (g : OpenGroup) : OpenGroup :=
  { g with branches := concat g.items.reverse :: g.branches, items := [], repeatable := false }

/-- Other options from here on. -/
def withOptions (g : OpenGroup) (o : Options) : OpenGroup :=
  { g with options := o, repeatable := false }

/-- The last item repeated. A question mark after the count turns its greed around. -/
def repeatLast (g : OpenGroup) (least : Nat) (most : Option Nat) (cs : List Char) :
    Option (OpenGroup × List Char) :=
  let (isLazy, cs) :=
    match cs with
    | '?' :: cs => (true, cs)
    | cs => (false, cs)
  match g.repeatable, g.items with
  | true, r :: items =>
    let greedy := isLazy == g.options.swapGreed
    some ({ g with items := r.times least most greedy :: items }, cs)
  | _, _ => none

/-- The group once it is closed. -/
def close (g : OpenGroup) : Regex :=
  anyOf (concat g.items.reverse :: g.branches).reverse

end OpenGroup

/-- What an opening parenthesis begins. -/
inductive Opening where
  /-- Options for the rest of the group it stands in. -/
  | options (o : Options)
  /-- A group under these options, with a number perhaps and a name. -/
  | group (o : Options) (numbered : Bool) (name : Option (List Char))

/-- Reads a name up to its closing angle bracket. -/
def readName (cs : List Char) : Option (List Char × List Char) :=
  match cs.span (· != '>') with
  | (c :: name, _ :: cs) =>
    if (c == '_' || (isWordChar c && !isDecimalDigit c)) &&
        name.all (fun c => isWordChar c || c == '.' || c == '[' || c == ']') then
      some (c :: name, cs)
    else none
  | _ => none

/-- Reads what follows an opening parenthesis, up to where the group itself begins.
Conditions on what lies around a place, other than assertions, are refused. -/
def readOpening (o : Options) : List Char → Option (Opening × List Char)
  | '?' :: '<' :: '=' :: _ => none
  | '?' :: '<' :: '!' :: _ => none
  | '?' :: '<' :: cs => (readName cs).map fun (name, cs) => (.group o true (some name), cs)
  | '?' :: 'P' :: '<' :: cs => (readName cs).map fun (name, cs) => (.group o true (some name), cs)
  | '?' :: cs => do
    match ← o.read [] true false cs with
    | (o, _, ':' :: cs) => some (.group o false none, cs)
    | (o, true, _ :: cs) => some (.options o, cs)
    | _ => none
  | cs => some (.group o true none, cs)

/-- Reads a group up to the parenthesis that closes it, or to the end. The names are
those of the groups so far; no name stands twice. Each round reads at least one
character, so the length of the source bounds their number. -/
def readGroup : Nat → OpenGroup → List (List Char) → List Char →
    Option (Regex × List (List Char) × List Char)
  | 0, _, _, _ => none
  | fuel + 1, g, names, cs =>
    match cs with
    | [] => some (g.close, names, [])
    | c :: cs =>
      match c with
      | ')' => some (g.close, names, c :: cs)
      | '|' => readGroup fuel g.nextBranch names cs
      | '(' => do
        match ← readOpening g.options cs with
        | (.options o, cs) => readGroup fuel (g.withOptions o) names cs
        | (.group o numbered name, cs) =>
          guard (!name.any names.contains)
          match ← readGroup fuel { options := o } (name.toList ++ names) cs with
          | (r, names, ')' :: cs) =>
            readGroup fuel (g.add (if numbered then .group r else r)) names cs
          | _ => none
      | '[' => do
        let (k, cs) := OpenClass.ofOpening g.options cs
        let (s, cs) ← readClass g.options (cs.length + 1) k cs
        readGroup fuel (g.add (.set s)) names cs
      | '\\' => do
        let (e, cs) ← readEscape cs
        let r : Regex :=
          match e with
          | .char c => .set (g.options.charsOf c)
          | .set s => .set s
          | .assertion a => .assertion a
        readGroup fuel (g.add r) names cs
      | '.' =>
        let s := if g.options.dotAll then .any else .compl (.single '\n')
        readGroup fuel (g.add (.set s)) names cs
      | '^' =>
        let a := if g.options.multiline then .lineStart else .textStart
        readGroup fuel (g.add (.assertion a)) names cs
      | '$' =>
        let a := if g.options.multiline then .lineEnd else .textEnd
        readGroup fuel (g.add (.assertion a)) names cs
      | '?' => do
        let (g, cs) ← g.repeatLast 0 (some 1) cs
        readGroup fuel g names cs
      | '*' => do
        let (g, cs) ← g.repeatLast 0 none cs
        readGroup fuel g names cs
      | '+' => do
        let (g, cs) ← g.repeatLast 1 none cs
        readGroup fuel g names cs
      | '\x7b' => do
        let (least, most, cs) ← readCount cs
        let (g, cs) ← g.repeatLast least most cs
        readGroup fuel g names cs
      | c => readGroup fuel (g.add (.set (g.options.charsOf c))) names cs

/-- The expression that the source denotes. -/
def ofSource? (source : List Char) : Option Regex := do
  match ← readGroup (source.length + 1) { options := {} } [] source with
  | (r, _, []) => some r
  | _ => none

end Descent.Regex
