import ComponentDocs.Json
import ComponentDocs.Pattern.Regex

/-!
# Reading patterns

The text of a pattern is read one part after the other.  What is read so far stands in levels, one
for each group that is still open: a part joins the innermost level, an opening parenthesis starts a
level, and a closing one makes a part of it.

Reading can fail in more ways than one.  Most texts that are no pattern are malformed; a number
that is too large to be counted to or to be that of a character is a problem of its own, and what
comes up first is the problem of the whole text.
-/

namespace ComponentDocs

/-- Why a text is no pattern. -/
inductive PatternProblem where
  | malformed
  /-- A bound of a repetition is a number that cannot be counted to. -/
  | countTooLarge
  /-- The number of a character is too large to be one of a machine. -/
  | numberTooLarge
  /-- The flags in front ask for both kinds of characters. -/
  | twoChoices
  deriving DecidableEq, Repr

/-- The message of a problem. -/
def PatternProblem.message : PatternProblem → String
  | .malformed => "it is malformed"
  | .countTooLarge => "the repetition number is too large"
  | .numberTooLarge => "Python int too large to convert to C int"
  | .twoChoices => "ASCII and UNICODE flags are incompatible"

/-- The characters that have names, by their names. -/
abbrev CharacterNames := String → Option Char

/-- A unit of the text of a pattern: a character, or a backslash with the character behind it.  A
backslash at the end of the text has none. -/
inductive PatternToken where
  | plain (c : Char)
  | escaped (c : Char)
  | unfinished
  deriving DecidableEq, Repr

/-- The units of a text. -/
def PatternToken.ofText : List Char → List PatternToken
  | [] => []
  | ['\\'] => [unfinished]
  | '\\' :: c :: rest => escaped c :: ofText rest
  | c :: rest => plain c :: ofText rest

/-- What a level has been opened for. -/
inductive PatternOpening where
  | whole
  | flagged (on off : List Flag)
  | group (number : Nat)
  | atomic
  | look (ahead positive : Bool)
  | conditional (number : Nat)
  deriving DecidableEq, Repr

/-- What has been read of a group, or of the whole pattern, last parts first. -/
structure PatternLevel where
  opening : PatternOpening := .whole
  /-- Whether blanks and comments are passed over. -/
  verbose : Bool := false
  /-- Inside of something that is looked back for, the number of its first group. -/
  lookedBackFrom : Option Nat := none
  alternatives : List Regex := []
  parts : List Regex := []
  deriving DecidableEq, Repr

/-- How far a pattern has been read. -/
structure PatternReader where
  tokens : List PatternToken
  level : PatternLevel := {}
  outer : List PatternLevel := []
  /-- The flags in front of the pattern. -/
  flags : List Flag := []
  /-- The lengths of the groups that have been opened, as far as they are closed. -/
  groups : List (Option Lengths) := []
  names : List (String × Nat) := []
  /-- The groups that conditions ask for by number. -/
  asked : List Nat := []
  deriving DecidableEq, Repr

namespace PatternLevel

/-- The parts of the alternative that is being read. -/
def row (l : PatternLevel) : Regex := l.parts.foldl (fun rest part => .seq part rest) .empty

/-- The alternatives that have been read. -/
def choice (l : PatternLevel) : Regex := l.alternatives.foldl (fun rest p => .alt p rest) l.row

/-- What a level stands for once it is closed. -/
def regex (l : PatternLevel) : Regex :=
  match l.opening with
  | .whole => l.choice
  | .flagged on off => .flagged on off l.choice
  | .group number => .group number l.choice
  | .atomic => .atomic l.choice
  | .look ahead positive => .look ahead positive l.choice
  | .conditional number =>
    match l.alternatives with
    | [] => .conditional number l.row .empty
    | yes :: _ => .conditional number yes l.row

end PatternLevel

namespace PatternReader

/-- Reading a part of a pattern. -/
abbrev Reading := StateT PatternReader (Except PatternProblem)

/-- Fails as malformed. -/
def malformed {α : Type} : Reading α := throw .malformed

/-! ## Units -/

/-- The next unit, used up.  A backslash at the end is found out as soon as it comes next. -/
def next : Reading PatternToken := do
  let r ← get
  match r.tokens with
  | [] | .unfinished :: _ | _ :: .unfinished :: _ => malformed
  | t :: rest =>
    set { r with tokens := rest }
    return t

/-- Whether the given character comes next; if so it is used up. -/
def accepts (c : Char) : Reading Bool := do
  if (← get).tokens.head? = some (.plain c) then
    let _ ← next
    return true
  else return false

/-- Up to a number of characters of a kind. -/
def takeUpTo (kind : Char → Bool) : Nat → Reading (List Char)
  | 0 => return []
  | n + 1 => do
    match (← get).tokens with
    | .plain c :: _ =>
      if kind c then
        let _ ← next
        return c :: (← takeUpTo kind n)
      else return []
    | _ => return []

/-- All characters of a kind that come next. -/
def takeAll (kind : Char → Bool) : Reading (List Char) := do takeUpTo kind (← get).tokens.length

/-- The text up to a character, which is used up with it. -/
def textUpTo (stop : Char) : Nat → Reading (List Char)
  | 0 => malformed
  | n + 1 => do
    match ← next with
    | .plain c => if c = stop then return [] else return c :: (← textUpTo stop n)
    | .escaped c => return '\\' :: c :: (← textUpTo stop n)
    | .unfinished => malformed

/-- The text up to a character, which must not be empty. -/
def name (stop : Char) : Reading (List Char) := do
  let cs ← textUpTo stop ((← get).tokens.length + 1)
  if cs.isEmpty then malformed else return cs

/-! ## Numbers -/

/-- The value of digits in a base. -/
def value (base : Nat) (digits : List Char) : Nat :=
  digits.foldl (fun n c => n * base + (Json.hexValue? c).getD 0) 0

/-- Whether a character is a digit to a base. -/
def isDigit (base : Nat) (c : Char) : Bool := (Json.hexValue? c).any (· < base)

/-- The number that so many hexadecimal digits stand for. -/
def hexNumber (count : Nat) : Reading Nat := do
  let digits ← takeUpTo (isDigit 16) count
  if digits.length < count then malformed else return value 16 digits

/-- The least number that is too large to be one of a machine. -/
def machineLimit : Nat := 0x80000000

/-- The greatest number of an octal escape. -/
def octalLimit : Nat := 0o377

/-- The number of a character that an octal escape stands for. -/
def octal (digits : List Char) : Reading Nat :=
  if octalLimit < value 8 digits then malformed else return value 8 digits

/-- The value of a whole number with a sign, in any digits and with blanks around it; underscores
may stand between digits. -/
def integer? (cs : List Char) : Option Int :=
  let isBlank (c : Char) := Text.isBlank c && !('\x1C' ≤ c && c ≤ '\x1F')
  let cs := ((cs.dropWhile isBlank).reverse.dropWhile isBlank).reverse
  let (negative, cs) := match cs with
    | '+' :: cs => (false, cs)
    | '-' :: cs => (true, cs)
    | cs => (false, cs)
  let digits := (cs.splitOn '_').map fun part => part.mapM Text.decimalValue?
  if digits.contains (some []) then none
  else
    (digits.mapM id).map fun digits =>
      let n := digits.flatten.foldl (fun n d => n * 10 + d) 0
      if negative then -Int.ofNat n else Int.ofNat n

/-! ## Escapes -/

/-- The letters of escapes for control characters. -/
def controlEscapes : List (Char × Nat) :=
  [('a', 0x07), ('f', 0x0C), ('n', 0x0A), ('r', 0x0D), ('t', 0x09), ('v', 0x0B)]

/-- The letters of escapes for kinds of characters; in upper case they stand for all others. -/
def kindEscapes : List (Char × SetMember) :=
  [('d', .kind .digit false), ('D', .kind .digit true), ('s', .kind .space false),
    ('S', .kind .space true), ('w', .kind .word false), ('W', .kind .word true)]

/-- The letters of escapes for marks. -/
def markEscapes : List (Char × Mark) :=
  [('A', .textStart), ('Z', .textEnd), ('b', .wordEdge), ('B', .noWordEdge)]

variable (names : CharacterNames)

/-- The number of a character that is given by its name in braces. -/
def namedNumber : Reading Nat := do
  if !(← accepts '\x7b') then malformed
  match names (String.ofList (← name '\x7d')) with
  | some c => return c.toNat
  | none => malformed

/-- The number of a character with eight hexadecimal digits. -/
def wideNumber : Reading Nat := do
  let n ← hexNumber 8
  if machineLimit ≤ n then throw .numberTooLarge
  else if 0x110000 ≤ n then malformed
  else return n

/-- The number of the character that an escape stands for, inside and outside of sets alike, if it
is one of these. -/
def number? (c : Char) : Reading (Option Nat) := do
  match controlEscapes.lookup c, c with
  | some n, _ => return some n
  | none, 'x' => return some (← hexNumber 2)
  | none, 'u' => return some (← hexNumber 4)
  | none, 'U' => return some (← wideNumber)
  | none, 'N' => return some (← namedNumber names)
  | none, _ => return none

/-- The member of a set that an escape stands for. -/
def setEscape (c : Char) : Reading SetMember := do
  if let some member := kindEscapes.lookup c then return member
  if c = 'b' then return .one 0x08
  if let some n ← number? names c then return .one n
  if isDigit 8 c then return .one (← octal (c :: (← takeUpTo (isDigit 8) 2)))
  if c.isAlphanum then malformed else return .one c.toNat

/-- The expression for one character. -/
def single (n : Nat) : Regex := .one ⟨false, [.one n]⟩

/-- A reference to what a group matched.  The group must be closed; and inside of something that is
looked back for it must have been so before. -/
def reference (number : Nat) : Reading Regex := do
  let r ← get
  match r.groups[number - 1]? with
  | some (some lengths) =>
    if r.level.lookedBackFrom.any (· ≤ number) then malformed else return .same number lengths
  | _ => malformed

/-- An escape with a digit other than zero: three octal digits are the number of a character, others
that of a group. -/
def numbered (c : Char) : Reading Regex := do
  match ← takeUpTo Char.isDigit 1 with
  | [d] =>
    if isDigit 8 c && isDigit 8 d then
      if let [e] ← takeUpTo (isDigit 8) 1 then return single (← octal [c, d, e])
    reference (value 10 [c, d])
  | _ => reference (value 10 [c])

/-- What an escape stands for outside of sets. -/
def escape (c : Char) : Reading Regex := do
  if let some member := kindEscapes.lookup c then return .one ⟨false, [member]⟩
  if let some mark := markEscapes.lookup c then return .mark mark
  if let some n ← number? names c then return single n
  if c = '0' then return single (← octal (← takeUpTo (isDigit 8) 2))
  if c.isDigit then numbered c
  else if c.isAlpha then malformed
  else return single c.toNat

/-! ## Sets -/

/-- What a unit stands for as a member of a set. -/
def member : PatternToken → Reading SetMember
  | .plain c => return .one c.toNat
  | .escaped c => setEscape names c
  | .unfinished => malformed

/-- The members of a set up to its closing bracket, which may also stand as its first member. -/
def members : Nat → Bool → Reading (List SetMember)
  | 0, _ => malformed
  | fuel + 1, isFirst => do
    let t ← next
    if t = .plain ']' && !isFirst then return []
    let low ← member names t
    if ← accepts '-' then
      let t ← next
      if t = .plain ']' then return [low, .one '-'.toNat]
      match low, ← member names t with
      | .one m, .one n => if n < m then malformed else return .range m n :: (← members fuel false)
      | _, _ => malformed
    else return low :: (← members fuel false)

/-- A set after its opening bracket. -/
def charSet : Reading Regex := do
  let negated ← accepts '^'
  return .one ⟨negated, ← members names ((← get).tokens.length + 1) true⟩

/-! ## Parts and levels -/

/-- A part joins the level that is being read. -/
def add (part : Regex) : Reading Unit :=
  modify fun r => { r with level := { r.level with parts := part :: r.level.parts } }

/-- Starts a level inside of the one that is being read. -/
def openLevel (opening : PatternOpening) : Reading Unit :=
  modify fun r =>
    let verbose := match opening with
      | .flagged on off => .verbose ∉ off && (.verbose ∈ on || r.level.verbose)
      | _ => r.level.verbose
    let lookedBackFrom := match opening with
      | .look false _ => r.level.lookedBackFrom <|> some (r.groups.length + 1)
      | _ => r.level.lookedBackFrom
    { r with level := { opening, verbose, lookedBackFrom }, outer := r.level :: r.outer }

/-- Closes the level that is being read, which becomes a part of the one around it. -/
def closeLevel : Reading Unit := do
  let r ← get
  match r.outer with
  | [] => malformed
  | level :: outer =>
    let groups := match r.level.opening with
      | .group number => r.groups.set (number - 1) (some r.level.choice.lengths)
      | _ => r.groups
    let part := r.level.regex
    set { r with level := { level with parts := part :: level.parts }, outer, groups }

/-- Starts another alternative; a condition has no more than two. -/
def bar : Reading Unit := do
  let level := (← get).level
  match level.opening, level.alternatives with
  | .conditional _, _ :: _ => malformed
  | _, _ =>
    modify fun r => { r with
      level := { level with alternatives := level.row :: level.alternatives, parts := [] } }

/-! ## Repetitions -/

/-- The least number that is too large to count repetitions. -/
def countLimit : Nat := 0xFFFFFFFF

/-- The number of repetitions that digits stand for. -/
def count (digits : List Char) : Reading Nat :=
  if countLimit ≤ value 10 digits then throw .countTooLarge else return value 10 digits

/-- The digits of the bounds in braces, after the opening one; any other text has none. -/
def boundDigits? : Reading (Option (List Char × List Char)) := do
  if (← get).tokens.head? = some (.plain '\x7d') then return none
  let low ← takeAll Char.isDigit
  let high ← if ← accepts ',' then takeAll Char.isDigit else pure low
  if ← accepts '\x7d' then return some (low, high) else return none

/-- The bounds that digits stand for. -/
def bounds (low high : List Char) : Reading (Nat × Option Nat) := do
  let least ← count low
  if high.isEmpty then return (least, none)
  let most ← count high
  if most < least then malformed else return (least, some most)

/-- Whether an expression can be repeated: a mark cannot, nor what is repeated already. -/
def isRepeatable : Regex → Bool
  | .mark _ | .repeated .. => false
  | _ => true

/-- How rounds are tried: a question mark behind the bounds makes a repetition lazy, and a plus
possessive. -/
def manner : Reading Manner := do
  if ← accepts '?' then return .lazy
  if ← accepts '+' then return .possessive
  return .greedy

/-- Repeats the last part. -/
def repeatLast (least : Nat) (most : Option Nat) : Reading Unit := do
  let level := (← get).level
  match level.parts with
  | [] => malformed
  | part :: parts =>
    if !isRepeatable part then malformed
    let manner ← manner
    modify fun r => { r with
      level := { level with parts := .repeated manner least most part :: parts } }

/-- The mark of a repetition.  A brace that opens no bounds stands for itself. -/
def repetition (c : Char) : Reading Unit := do
  match c with
  | '*' => repeatLast 0 none
  | '+' => repeatLast 1 none
  | '?' => repeatLast 0 (some 1)
  | _ =>
    let tokens := (← get).tokens
    match ← boundDigits? with
    | some (low, high) =>
      let (least, most) ← bounds low high
      repeatLast least most
    | none =>
      modify fun r => { r with tokens }
      add (single c.toNat)

/-! ## Groups -/

/-- The letters of flags. -/
def flagLetters : List (Char × Flag) :=
  [('a', .ascii), ('i', .ignoreCase), ('m', .multiLine), ('s', .dotAll), ('t', .template),
    ('u', .unicode), ('x', .verbose)]

/-- The flag of a letter. -/
def flag (c : Char) : Reading Flag :=
  match flagLetters.lookup c with
  | some flag => return flag
  | none => malformed

/-- Flags up to one of the characters that can end them, which is used up with them. -/
def flagsUpTo (stops : List Char) : Nat → Reading (List Flag × Char)
  | 0 => malformed
  | fuel + 1 => do
    match ← next with
    | .plain c =>
      if c ∈ stops then return ([], c)
      let here ← flag c
      let (others, stop) ← flagsUpTo stops fuel
      return (here :: others, stop)
    | _ => malformed

/-- Puts on flags for the whole pattern, in front of which they must stand. -/
def addFlags (on : List Flag) : Reading Unit := do
  let r ← get
  if !(r.outer.isEmpty && r.level.alternatives.isEmpty && r.level.parts.isEmpty) then malformed
  let flags := r.flags ++ on
  set { r with flags, level := { r.level with verbose := .verbose ∈ flags } }

/-- The flags behind a question mark, from the given character on: those of a group, or those of the
whole pattern. -/
def flagGroup (c : Char) : Reading Unit := do
  let fuel := (← get).tokens.length + 1
  let (on, stop) ← if c = '-' then pure ([], '-')
    else do
      let here ← flag c
      let (others, stop) ← flagsUpTo [')', '-', ':'] fuel
      pure (here :: others, stop)
  if .ascii ∈ on && .unicode ∈ on then malformed
  if stop = ')' then addFlags on
  else
    let off ← if stop = '-' then (·.1) <$> flagsUpTo [':'] fuel else pure []
    if stop = '-' && off.isEmpty then malformed
    if off.any Flag.isChoice || .template ∈ on ++ off || on.any (· ∈ off) then malformed
    openLevel (.flagged on off)

/-- One more than the greatest number that a group can have. -/
def groupLimit : Nat := 0x3FFFFFFF

/-- Starts a group with the next number, and with a name if there is one. -/
def openGroup (name : Option String) : Reading Unit := do
  let r ← get
  let number := r.groups.length + 1
  if groupLimit ≤ number then malformed
  if name.any fun name => (r.names.lookup name).isSome then malformed
  modify fun r => { r with
    groups := r.groups ++ [none], names := r.names ++ (name.map (·, number)).toList }
  openLevel (.group number)

/-- The number of the group with a name. -/
def groupNamed (name : List Char) : Reading Nat := do
  match (← get).names.lookup (String.ofList name) with
  | some number => return number
  | none => malformed

/-- An identifier up to a character, which is used up with it. -/
def identifier (stop : Char) : Reading (List Char) := do
  let cs ← name stop
  if Text.isIdentifier cs then return cs else malformed

/-- A named group, or a reference to one. -/
def named : Reading Unit := do
  if ← accepts '<' then
    openGroup (some (String.ofList (← identifier '>')))
  else if ← accepts '=' then
    add (← reference (← groupNamed (← identifier ')')))
  else malformed

/-- The group that a condition asks for by its number. -/
def askedFor (cs : List Char) : Reading Nat := do
  match integer? cs with
  | some (.ofNat number) =>
    if number = 0 || groupLimit ≤ number then malformed
    modify fun r => { r with asked := number :: r.asked }
    return number
  | _ => malformed

/-- A condition: the name or the number of a group, up to the closing parenthesis. -/
def conditional : Reading Unit := do
  let cs ← name ')'
  let number ← if Text.isIdentifier cs then groupNamed cs else askedFor cs
  if (← get).level.lookedBackFrom.isSome then
    let _ ← reference number
  openLevel (.conditional number)

/-- What stands behind an opening parenthesis. -/
def opening : Reading Unit := do
  if !(← accepts '?') then openGroup none
  else
    match ← next with
    | .plain 'P' => named
    | .plain ':' => openLevel (.flagged [] [])
    | .plain '#' => let _ ← textUpTo ')' ((← get).tokens.length + 1)
    | .plain '=' => openLevel (.look true true)
    | .plain '!' => openLevel (.look true false)
    | .plain '<' =>
      if ← accepts '=' then openLevel (.look false true)
      else if ← accepts '!' then openLevel (.look false false)
      else malformed
    | .plain '(' => conditional
    | .plain '>' => openLevel .atomic
    | .plain c => flagGroup c
    | _ => malformed

/-! ## The whole pattern -/

/-- Passes over a comment up to the end of its line. -/
def skipLine : Nat → Reading Unit
  | 0 => return
  | fuel + 1 => do
    if (← get).tokens.isEmpty then return
    if (← next) ≠ .plain '\n' then skipLine fuel

/-- Reads what stands next. -/
def step : Reading Unit := do
  match ← next with
  | .escaped c => add (← escape names c)
  | .unfinished => malformed
  | .plain c =>
    let verbose := (← get).level.verbose
    if verbose && c ∈ [' ', '\t', '\n', '\r', '\x0B', '\x0C'] then return
    else if verbose && c = '#' then skipLine ((← get).tokens.length + 1)
    else
      match c with
      | '|' => bar
      | ')' => closeLevel
      | '(' => opening
      | '[' => add (← charSet names)
      | '.' => add .dot
      | '^' => add (.mark .lineStart)
      | '$' => add (.mark .lineEnd)
      | '*' | '+' | '?' | '\x7b' => repetition c
      | _ => add (single c.toNat)

/-- Reads on to the end, or to a parenthesis that closes no level.  As each step uses up a unit, as
many steps as there are units are enough. -/
def readOn : Nat → Reading Unit
  | 0 => return
  | fuel + 1 => do
    let r ← get
    if r.tokens.isEmpty || r.outer.isEmpty && r.tokens.head? = some (.plain ')') then return
    step names
    readOn fuel

end PatternReader

end ComponentDocs
