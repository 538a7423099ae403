import ComponentDocs.Text.Utf8
import ComponentDocs.Yaml.Scalar

/-!
# Tokens of YAML

A text is cut into tokens that make its block structure explicit: where a block starts or ends by
indentation, a token says so.  That something was a key shows only at the colon behind it, so
places where a key may start are remembered, and the tokens for the key are put in there later.
-/

namespace ComponentDocs.Yaml

open Reading

/-- A tag as written: its handle, if it has one, and the rest of it. -/
structure WrittenTag where
  handle : Option String
  suffix : String
  deriving DecidableEq, Repr

/-- A directive in front of a document. -/
inductive Directive where
  | version (major minor : Nat)
  | tagHandle (handle tagStart : String)
  | other
  deriving DecidableEq, Repr

/-- A token. -/
inductive Token where
  | directive (d : Directive)
  | documentStart
  | documentEnd
  | blockSequenceStart
  | blockMappingStart
  | blockEnd
  | flowSequenceStart
  | flowSequenceEnd
  | flowMappingStart
  | flowMappingEnd
  | entry
  | flowEntry
  | key
  | value
  | alias (name : String)
  | anchor (name : String)
  | tag (t : WrittenTag)
  | scalar (text : String) (plain : Bool)
  deriving DecidableEq, Repr

namespace Token

/-! ## Parts of tokens -/

/-- A character of names of anchors, directives and tag handles. -/
def isNameChar (c : Char) : Bool := c.isAlphanum || c == '-' || c == '_'

/-- The name of an anchor or alias after its mark. -/
def anchorName : Reading String := do
  advance 1
  let name ← takeWhile isNameChar
  require !name.isEmpty
  let after ← peek
  require (endsWord after || (after.map fun c => "?:,]\x7d%@`".toList.contains c).getD false)
  return String.ofList name

/-- A character of tags. -/
def isTagChar (c : Char) : Bool := c.isAlphanum || "-;/?:@&=+$,_.!~*'()[]".toList.contains c

/-- The bytes of a run of escapes by percent signs. -/
def escapedBytes : Nat → List UInt8 → Reading (List UInt8)
  | 0, bytes => return bytes
  | fuel + 1, bytes => do
    if (← peek) == some '%' then
      let digits := ((← get).rest.drop 1).take 2
      match hexNumber? digits with
      | some n =>
        require (digits.length == 2)
        advance 3
        escapedBytes fuel (bytes ++ [UInt8.ofNat n])
      | none => malformed
    else return bytes

/-- The text of a tag from here on. -/
def tagTextFrom : Nat → List Char → Reading (List Char)
  | 0, text => return text
  | fuel + 1, text => do
    let text := text ++ (← takeWhile isTagChar)
    if (← peek) == some '%' then
      match Text.readStrict? (← escapedBytes fuel []) with
      | some cs => tagTextFrom fuel (text ++ cs)
      | none => malformed
    else return text

/-- The text of a tag, which is not empty. -/
def tagText : Reading String := do
  let text ← tagTextFrom ((← get).rest.length + 1) []
  require !text.isEmpty
  return String.ofList text

/-- The handle of a tag: one exclamation mark before a space, else a name between two. -/
def tagHandle : Reading String := do
  require ((← peek) == some '!')
  advance 1
  if (← peek) == some ' ' then return "!"
  let name ← takeWhile isNameChar
  require ((← peek) == some '!')
  advance 1
  return String.ofList ('!' :: name ++ ['!'])

/-- A tag. -/
def writtenTag : Reading WrittenTag := do
  let p ← get
  let tag : WrittenTag ← match p.peekAt 1 with
    | some '<' =>
      advance 2
      let suffix ← tagText
      require ((← peek) == some '>')
      advance 1
      pure ⟨none, suffix⟩
    | after =>
      if endsWord after then
        advance 1
        pure ⟨none, "!"⟩
      else
        let word := (p.rest.drop 1).takeWhile fun c => c != ' ' && !isBreak c
        let handle ← if word.contains '!' then tagHandle else do
          advance 1
          pure "!"
        pure ⟨some handle, ← tagText⟩
  require ((← peek) == some ' ' || endsLine (← peek))
  return tag

/-- A number in a directive. -/
def directiveNumber : Reading Nat := do
  let digits ← takeWhile Char.isDigit
  require !digits.isEmpty
  return Json.decimalValue digits

/-- A directive through the end of its line. -/
def directiveLine : Reading Directive := do
  advance 1
  let name ← takeWhile isNameChar
  require !name.isEmpty
  require ((← peek) == some ' ' || endsLine (← peek))
  let directive ← match String.ofList name with
    | "YAML" =>
      skipSpaces
      let major ← directiveNumber
      require ((← peek) == some '.')
      advance 1
      let minor ← directiveNumber
      require ((← peek) == some ' ' || endsLine (← peek))
      pure (.version major minor)
    | "TAG" =>
      skipSpaces
      let handle ← tagHandle
      require ((← peek) == some ' ')
      skipSpaces
      let tagStart ← tagText
      require ((← peek) == some ' ' || endsLine (← peek))
      pure (.tagHandle handle tagStart)
    | _ =>
      modify (Place.skipWhile fun c => !isBreak c)
      pure .other
  endOfLine
  return directive

/-! ## Scanning -/

/-- A place where a key may have started. -/
structure PossibleKey where
  /-- How many tokens stand before it. -/
  position : Nat
  /-- Whether the text is malformed if it is no key. -/
  required : Bool
  index : Nat
  line : Nat
  column : Nat

/-- What is known between two tokens.  Indentations are counted from one, so that zero is outside
of all blocks; the tokens so far are held last one first. -/
structure Scan where
  place : Place
  tokens : List Token := []
  count : Nat := 0
  /-- The indentation of the current block, and of the blocks around it. -/
  indent : Nat := 0
  outer : List Nat := []
  /-- How many flow collections are open. -/
  flow : Nat := 0
  keyAllowed : Bool := true
  /-- The possible keys, each with the number of flow collections that are open around it. -/
  keys : List (Nat × PossibleKey) := []

/-- A step of scanning. -/
abbrev Scanning := StateT Scan (Except ScanProblem)

namespace Scanning

/-- Fails as malformed. -/
def malformed {α : Type} : Scanning α := throw .malformed

/-- Appends a token. -/
def emit (t : Token) : Scanning Unit :=
  modify fun s => { s with tokens := t :: s.tokens, count := s.count + 1 }

/-- Puts a token in after the given number of tokens. -/
def emitAt (position : Nat) (t : Token) : Scanning Unit :=
  modify fun s =>
    let later := s.count - position
    { s with tokens := s.tokens.take later ++ t :: s.tokens.drop later, count := s.count + 1 }

/-- Reads from the current place. -/
def read {α : Type} (p : Reading α) : Scanning α := do
  match p (← get).place with
  | .ok (a, place) =>
    modify fun s => { s with place }
    return a
  | .error e => throw e

/-- The possible key at the current depth. -/
def possibleKey? : Scanning (Option PossibleKey) := do
  return (← get).keys.lookup (← get).flow

/-- Says whether keys may start from here on. -/
def allowKey (allowed : Bool) : Scanning Unit := modify fun s => { s with keyAllowed := allowed }

/-- Gives up the possible key at the current depth. -/
def dropKey : Scanning Unit := do
  match ← possibleKey? with
  | some start =>
    if start.required then malformed
    modify fun s => { s with keys := s.keys.filter fun (flow, _) => flow != s.flow }
  | none => pure ()

/-- The greatest distance between the start of a key and its colon. -/
def keyLimit : Nat := 1024

/-- Gives up the possible keys that are too far away or on an earlier line. -/
def dropStaleKeys : Scanning Unit := do
  let s ← get
  let stale (start : PossibleKey) : Bool :=
    start.line != s.place.line || keyLimit < s.place.index - start.index
  if s.keys.any fun (_, start) => stale start && start.required then malformed
  set { s with keys := s.keys.filter fun (_, start) => !stale start }

/-- Remembers that a key may start here. -/
def saveKey : Scanning Unit := do
  let s ← get
  if s.keyAllowed then
    dropKey
    let start : PossibleKey :=
      { position := s.count
        required := s.flow == 0 && s.indent == s.place.column + 1
        index := s.place.index
        line := s.place.line
        column := s.place.column }
    modify fun s => { s with keys := (s.flow, start) :: s.keys }

/-- Closes the blocks that are indented deeper than the given indentation. -/
def closeBlocks (indent : Nat) : Scanning Unit :=
  modify fun s =>
    let closed := (s.indent :: s.outer).takeWhile (indent < ·)
    let remaining := (s.indent :: s.outer).drop closed.length
    { s with
      tokens := List.replicate closed.length .blockEnd ++ s.tokens
      count := s.count + closed.length
      indent := remaining.head?.getD 0
      outer := remaining.tail }

/-- Opens a block at a column if it is indented deeper than the current one. -/
def openBlock (column : Nat) : Scanning Bool := do
  let s ← get
  if s.indent < column + 1 then
    set { s with indent := column + 1, outer := s.indent :: s.outer }
    return true
  return false

/-- Moves on to the next token, over spaces, comments and line ends. -/
def toNextToken : Nat → Scanning Unit
  | 0 => pure ()
  | fuel + 1 => do
    read do
      skipSpaces
      skipComment
    match (← get).place.lineBreak? with
    | some (_, place) =>
      modify fun s => { s with place, keyAllowed := s.keyAllowed || s.flow == 0 }
      toNextToken fuel
    | none => pure ()

/-- A mark between documents. -/
def documentMark (t : Token) : Scanning Unit := do
  closeBlocks 0
  dropKey
  allowKey false
  read (advance 3)
  emit t

/-- The start of a flow collection. -/
def openFlow (t : Token) : Scanning Unit := do
  saveKey
  modify fun s => { s with flow := s.flow + 1 }
  allowKey true
  read (advance 1)
  emit t

/-- The end of a flow collection. -/
def closeFlow (t : Token) : Scanning Unit := do
  dropKey
  if (← get).flow == 0 then malformed
  modify fun s => { s with flow := s.flow - 1 }
  allowKey false
  read (advance 1)
  emit t

/-- The comma of a flow collection. -/
def flowComma : Scanning Unit := do
  allowKey true
  dropKey
  read (advance 1)
  emit .flowEntry

/-- The dash of a block sequence. -/
def dash : Scanning Unit := do
  if (← get).flow == 0 then
    if !(← get).keyAllowed then malformed
    if ← openBlock (← get).place.column then emit .blockSequenceStart
  allowKey true
  dropKey
  read (advance 1)
  emit .entry

/-- The question mark of a key. -/
def questionMark : Scanning Unit := do
  if (← get).flow == 0 then
    if !(← get).keyAllowed then malformed
    if ← openBlock (← get).place.column then emit .blockMappingStart
  allowKey ((← get).flow == 0)
  dropKey
  read (advance 1)
  emit .key

/-- The colon of a value.  A possible key before it becomes one. -/
def colon : Scanning Unit := do
  match ← possibleKey? with
  | some start =>
    modify fun s => { s with keys := s.keys.filter fun (flow, _) => flow != s.flow }
    emitAt start.position .key
    if (← get).flow == 0 then
      if ← openBlock start.column then emitAt start.position .blockMappingStart
    allowKey false
  | none =>
    if (← get).flow == 0 then
      if !(← get).keyAllowed then malformed
      if ← openBlock (← get).place.column then emit .blockMappingStart
    allowKey ((← get).flow == 0)
    dropKey
  read (advance 1)
  emit .value

/-- A token that can start a key. -/
def keyStart (token : Reading Token) : Scanning Unit := do
  saveKey
  allowKey false
  emit (← read token)

/-- A block scalar. -/
def blockScalar (folded : Bool) : Scanning Unit := do
  allowKey true
  dropKey
  let text ← read (block folded (← get).indent)
  emit (.scalar text false)

/-- A plain scalar; after a line end behind it a key may start. -/
def plainScalar : Scanning Unit := do
  saveKey
  let s ← get
  let (text, newline) ← read (plain (s.flow != 0) s.indent)
  allowKey newline
  emit (.scalar text true)

/-- Whether a plain scalar can start with these characters. -/
def startsPlain (inFlow : Bool) (c : Char) (after : Option Char) : Bool :=
  (!endsWord (some c) && !"-?:,[]\x7b\x7d#&*!|>'\"%@`".toList.contains c) ||
    (!endsWord after && (c == '-' || (!inFlow && (c == '?' || c == ':'))))

/-- The next token and those that its place implies; false at the end of the text. -/
def step : Scanning Bool := do
  toNextToken ((← get).place.rest.length + 1)
  dropStaleKeys
  let s ← get
  let p := s.place
  let inFlow := s.flow != 0
  if !inFlow then closeBlocks (p.column + 1)
  match p.peek with
  | none =>
    closeBlocks 0
    dropKey
    return false
  | some c =>
    let after := p.peekAt 1
    if c == '%' && p.column == 0 then
      closeBlocks 0
      dropKey
      allowKey false
      emit (.directive (← read directiveLine))
    else if p.column == 0 && p.atMark '-' then documentMark .documentStart
    else if p.column == 0 && p.atMark '.' then documentMark .documentEnd
    else if c == '[' then openFlow .flowSequenceStart
    else if c == '\x7b' then openFlow .flowMappingStart
    else if c == ']' then closeFlow .flowSequenceEnd
    else if c == '\x7d' then closeFlow .flowMappingEnd
    else if c == ',' then flowComma
    else if c == '-' && endsWord after then dash
    else if c == '?' && (inFlow || endsWord after) then questionMark
    else if c == ':' && (inFlow || endsWord after) then colon
    else if c == '*' then keyStart (.alias <$> anchorName)
    else if c == '&' then keyStart (.anchor <$> anchorName)
    else if c == '!' then keyStart (.tag <$> writtenTag)
    else if c == '|' && !inFlow then blockScalar false
    else if c == '>' && !inFlow then blockScalar true
    else if c == '\'' then keyStart ((Token.scalar · false) <$> quoted false)
    else if c == '"' then keyStart ((Token.scalar · false) <$> quoted true)
    else if startsPlain inFlow c after then plainScalar
    else malformed
    return true

/-- All tokens from here on. -/
def run : Nat → Scanning Unit
  | 0 => pure ()
  | fuel + 1 => do
    if ← step then run fuel

end Scanning

/-- A character that a text may hold. -/
def isAllowed (c : Char) : Bool :=
  let n := c.toNat
  n == 0x09 || n == 0x0A || n == 0x0D || (0x20 ≤ n && n ≤ 0x7E) || n == 0x85 ||
    (0xA0 ≤ n && n ≤ 0xD7FF) || (0xE000 ≤ n && n ≤ 0xFFFD) || 0x10000 ≤ n

/-- The tokens of a text; a byte order mark at its start is passed over. -/
def scan (cs : List Char) : Except ScanProblem (List Token) :=
  if cs.all isAllowed then
    let start : Place := { rest := cs }
    let start := if start.peek == some '\uFEFF' then start.next else start
    match Scanning.run (2 * cs.length + 2) { place := start } with
    | .ok (_, s) => .ok s.tokens.reverse
    | .error e => .error e
  else .error .malformed

end Token

end ComponentDocs.Yaml
