import ComponentDocs.Json
import ComponentDocs.Yaml.Place

/-!
# Scalars

The text of plain, quoted and block scalars.  A line end inside a scalar folds to a space; empty
lines after it stay.
-/

namespace ComponentDocs.Yaml

open Reading

/-! ## Plain scalars -/

/-- The marks of flow collections. -/
def isFlowMark (c : Char) : Bool := c == ',' || c == '[' || c == ']' || c == '\x7b' || c == '\x7d'

/-- The number of characters of a plain scalar before its end or the next blank. -/
def plainLength (inFlow : Bool) : List Char → Nat
  | [] => 0
  | c :: rest =>
    let ends :=
      endsWord (some c) ||
        (c == ':' && (endsWord rest.head? || (inFlow && (rest.head?.map isFlowMark).getD false))) ||
        (inFlow && (isFlowMark c || c == '?'))
    if ends then 0 else plainLength inFlow rest + 1

/-- The line ends and leading spaces after the first line end in a plain scalar, with the place
after them; none before a mark between documents. -/
def plainBreaks : Nat → List Char → Place → Option (List Char) × Place
  | 0, breaks, p => (some breaks, p)
  | fuel + 1, breaks, p =>
    match p.peek with
    | some ' ' => plainBreaks fuel breaks p.next
    | _ =>
      match p.lineBreak? with
      | some (c, p) =>
        if p.atSeparator then (none, p) else plainBreaks fuel (breaks ++ [c]) p
      | none => (some breaks, p)

/-- What folded line ends stand for, given the first one and the others. -/
def foldBreaks (first : Char) (others : List Char) : List Char :=
  if first != '\n' then first :: others else if others.isEmpty then [' '] else others

/-- What stands between two words of a plain scalar, and whether it holds a line end; nothing if
the scalar ends. -/
def plainSpaces (p : Place) : List Char × Bool × Place :=
  let spaces := p.rest.takeWhile (· == ' ')
  let p := p.advance spaces.length
  match p.lineBreak? with
  | none => (spaces, false, p)
  | some (first, p) =>
    if p.atSeparator then ([], true, p)
    else
      match plainBreaks (p.rest.length + 1) [] p with
      | (none, p) => ([], true, p)
      | (some others, p) => (foldBreaks first others, true, p)

/-- A plain scalar from one of its words on, given what precedes the word; also whether the last
thing passed over holds a line end. -/
def plainFrom (inFlow : Bool) (indent : Nat) :
    Nat → List Char → Bool → Place → List Char × Bool × Place
  | 0, _, newline, p => ([], newline, p)
  | fuel + 1, before, newline, p =>
    let n := plainLength inFlow p.rest
    if p.peek == some '#' || n == 0 then ([], newline, p)
    else
      let word := before ++ p.rest.take n
      let (spaces, newline, p) := plainSpaces (p.advance n)
      if spaces.isEmpty || p.peek == some '#' || (!inFlow && p.column < indent) then
        (word, newline, p)
      else
        let (more, newline, p) := plainFrom inFlow indent fuel spaces newline p
        (word ++ more, newline, p)

/-- A plain scalar whose further lines stand at the given column at least, and whether a line ends
after it. -/
def plain (inFlow : Bool) (indent : Nat) : Reading (String × Bool) := fun p =>
  let (text, newline, p) := plainFrom inFlow indent (p.rest.length + 1) [] false p
  .ok ((String.ofList text, newline), p)

/-! ## Quoted scalars -/

/-- The characters that escapes of one letter stand for. -/
def simpleEscapes : List (Char × Char) :=
  [('0', '\x00'), ('a', '\x07'), ('b', '\x08'), ('t', '\t'), ('\t', '\t'), ('n', '\n'),
    ('v', '\x0B'), ('f', '\x0C'), ('r', '\r'), ('e', '\x1B'), (' ', ' '), ('"', '"'), ('\\', '\\'),
    ('/', '/'), ('N', '\u0085'), ('_', '\u00A0'), ('L', '\u2028'), ('P', '\u2029')]

/-- The letters of escapes by number, and the number of their digits. -/
def numberedEscapes : List (Char × Nat) := [('x', 2), ('u', 4), ('U', 8)]

/-- The character with a number, given what follows its escape, and how many characters of that
belong to it: the other half of a surrogate pair. -/
def character (n : Nat) (rest : List Char) : Except ScanProblem (Char × Nat) :=
  if 0x110000 ≤ n then .error (.noCharacter (0x80000000 ≤ n))
  else
    let (c, after) := Json.numbered n rest
    .ok (c, rest.length - after.length)

/-- The value of hexadecimal digits. -/
def hexNumber? (cs : List Char) : Option Nat :=
  cs.foldlM (fun n c => (Json.hexValue? c).map fun d => n * 16 + d) 0

/-- The empty lines within a quoted scalar. -/
def quotedBreaks : Nat → List Char → Reading (List Char)
  | 0, breaks => return breaks
  | fuel + 1, breaks => do
    require !(← get).atSeparator
    modify (Place.skipWhile isBlank)
    match (← get).lineBreak? with
    | some (c, p) =>
      set p
      quotedBreaks fuel (breaks ++ [c])
    | none => return breaks

/-- An escape after its backslash. -/
def escape (fuel : Nat) : Reading (List Char) := do
  match ← peek with
  | none => malformed
  | some c =>
    match simpleEscapes.lookup c, numberedEscapes.lookup c with
    | some d, _ =>
      advance 1
      return [d]
    | none, some n =>
      advance 1
      let digits := (← get).rest.take n
      match hexNumber? digits with
      | some code =>
        require (digits.length == n)
        let (d, more) ← character code ((← get).rest.drop n)
        advance (n + more)
        return [d]
      | none => malformed
    | none, none =>
      match (← get).lineBreak? with
      | some (_, p) =>
        set p
        quotedBreaks fuel []
      | none => malformed

/-- A quoted scalar after its opening mark. -/
def quotedFrom (double : Bool) : Nat → List Char → Reading (List Char)
  | 0, _ => malformed
  | fuel + 1, text => do
    match ← peek with
    | none => malformed
    | some c =>
      if c == '\\' && double then
        advance 1
        quotedFrom double fuel (text ++ (← escape fuel))
      else if c == '\'' && !double && (← get).peekAt 1 == some '\'' then
        advance 2
        quotedFrom double fuel (text ++ ['\''])
      else if c == (if double then '"' else '\'') then
        advance 1
        return text
      else if endsWord (some c) then
        let blanks ← takeWhile isBlank
        match (← get).lineBreak? with
        | some (first, p) =>
          set p
          quotedFrom double fuel (text ++ foldBreaks first (← quotedBreaks fuel []))
        | none =>
          require (← peek).isSome
          quotedFrom double fuel (text ++ blanks)
      else
        advance 1
        quotedFrom double fuel (text ++ [c])

/-- A quoted scalar. -/
def quoted (double : Bool) : Reading String := do
  advance 1
  return String.ofList (← quotedFrom double ((← get).rest.length + 1) [])

/-! ## Block scalars -/

/-- How a block scalar ends: with one line end, with none, or with all that follow it. -/
inductive Chomping where
  | clip
  | strip
  | keep
  deriving DecidableEq

/-- The mark for how a block scalar ends. -/
def chomping? : Option Char → Option Chomping
  | some '+' => some .keep
  | some '-' => some .strip
  | _ => none

/-- The mark for how deep a block scalar is indented. -/
def increment? : Option Char → Option Nat
  | some c => if c.isDigit then some (c.toNat - '0'.toNat) else none
  | none => none

/-- The marks after the indicator of a block scalar, in either order. -/
def blockHeader : Reading (Chomping × Option Nat) := do
  let first ← peek
  let header ← match chomping? first, increment? first with
    | some chomping, _ =>
      advance 1
      let increment := increment? (← peek)
      if increment.isSome then advance 1
      pure (chomping, increment)
    | none, some increment =>
      advance 1
      let chomping := chomping? (← peek)
      if chomping.isSome then advance 1
      pure (chomping.getD .clip, some increment)
    | none, none => pure (.clip, none)
  require (header.2 != some 0)
  require ((← peek) == some ' ' || endsLine (← peek))
  endOfLine
  return header

/-- The empty lines before the first line of a block scalar, and the largest column reached. -/
def leadingBreaks : Nat → List Char → Nat → Place → List Char × Nat × Place
  | 0, breaks, column, p => (breaks, column, p)
  | fuel + 1, breaks, column, p =>
    match p.peek with
    | some ' ' => leadingBreaks fuel breaks (max column p.next.column) p.next
    | _ =>
      match p.lineBreak? with
      | some (c, p) => leadingBreaks fuel (breaks ++ [c]) column p
      | none => (breaks, column, p)

/-- The place after the spaces up to a column. -/
def indentTo (indent : Nat) (p : Place) : Place :=
  p.advance ((p.rest.takeWhile (· == ' ')).take (indent - p.column)).length

/-- The empty lines between lines of a block scalar. -/
def blockBreaks (indent : Nat) : Nat → List Char → Place → List Char × Place
  | 0, breaks, p => (breaks, p)
  | fuel + 1, breaks, p =>
    match p.lineBreak? with
    | some (c, p) => blockBreaks indent fuel (breaks ++ [c]) (indentTo indent p)
    | none => (breaks, p)

/-- The lines of a block scalar from one on, given the empty lines before it. -/
def blockLines (folded : Bool) (chomping : Chomping) (indent : Nat) :
    Nat → List Char → List Char → Place → List Char × Place
  | 0, _, text, p => (text, p)
  | fuel + 1, breaks, text, p =>
    let indented (p : Place) : Bool := (p.peek.map isBlank).getD false
    let line := p.rest.takeWhile fun c => !isBreak c
    let after := p.advance line.length
    let (ending, after) := match after.lineBreak? with
      | some (c, after) => ([c], after)
      | none => ([], after)
    let text := text ++ breaks ++ line
    let start := indentTo indent after
    let (breaks, start) := blockBreaks indent (after.rest.length + 1) [] start
    if start.column == indent && start.peek.isSome then
      let joint :=
        if folded && ending == ['\n'] && !indented p && !indented start then
          if breaks.isEmpty then [' '] else []
        else ending
      blockLines folded chomping indent fuel breaks (text ++ joint) start
    else
      (match chomping with
        | .strip => text
        | .clip => text ++ ending
        | .keep => text ++ ending ++ breaks, start)

/-- A block scalar inside a block at the given indentation. -/
def block (folded : Bool) (outer : Nat) : Reading String := do
  advance 1
  let (chomping, increment) ← blockHeader
  let least := max outer 1
  let p ← get
  let fuel := p.rest.length + 1
  let (breaks, indent, p) := match increment with
    | none =>
      let (breaks, column, p) := leadingBreaks fuel [] 0 p
      (breaks, max least column, p)
    | some n =>
      let indent := least + n - 1
      let (breaks, p) := blockBreaks indent fuel [] (indentTo indent p)
      (breaks, indent, p)
  if p.column == indent && p.peek.isSome then
    let (text, p) := blockLines folded chomping indent fuel breaks [] p
    set p
    return String.ofList text
  else
    set p
    return String.ofList (if chomping = .keep then breaks else [])

end ComponentDocs.Yaml
