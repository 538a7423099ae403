import ComponentDocs.Json

/-!
# Assignment files

An assignment file binds names to literal values, one statement a line, in the notation of an
indentation-based scripting language: lists, tuples, sets and mappings in brackets, in which lines
may break, texts in single, double or triple quotes, numbers and three words.  A statement may also
raise an error, which makes the whole file fail.
-/

namespace ComponentDocs.Assignments

/-- Reading from a text. -/
abbrev Reading := StateT (List Char) Option

namespace Reading

/-- The next character. -/
def peek : Reading (Option Char) := fun cs => some (cs.head?, cs)

/-- Moves on by some characters. -/
def advance (n : Nat) : Reading Unit := modify (List.drop n)

/-- The given characters, used up if they come next. -/
def accepts (word : String) : Reading Bool := fun cs =>
  if word.toList.isPrefixOf cs then some (true, cs.drop word.length) else some (false, cs)

/-- The given characters. -/
def expect (word : String) : Reading Unit := do
  if !(← accepts word) then failure

end Reading

open Reading

/-! ## Gaps -/

/-- What follows blanks, and in brackets also line ends and comments. -/
def gapEnd (inBrackets : Bool) : Nat → List Char → List Char
  | 0, cs => cs
  | fuel + 1, cs =>
    match cs with
    | ' ' :: rest => gapEnd inBrackets fuel rest
    | '\t' :: rest => gapEnd inBrackets fuel rest
    | '\x0C' :: rest => gapEnd inBrackets fuel rest
    | '\\' :: '\n' :: rest => gapEnd inBrackets fuel rest
    | '\n' :: rest => if inBrackets then gapEnd inBrackets fuel rest else cs
    | '#' :: rest =>
      if inBrackets then gapEnd inBrackets fuel (rest.dropWhile (· != '\n')) else cs
    | cs => cs

/-- Moves on over a gap. -/
def gap (inBrackets : Bool) : Reading Unit := modify fun cs => gapEnd inBrackets cs.length cs

/-! ## Texts -/

/-- The letters of escapes. -/
def letterEscapes : List (Char × Char) :=
  [('\\', '\\'), ('\'', '\''), ('"', '"'), ('a', '\x07'), ('b', '\x08'), ('f', '\x0C'),
    ('n', '\n'), ('r', '\r'), ('t', '\t'), ('v', '\x0B')]

/-- The escapes by number, with the number of their digits. -/
def numberEscapes : List (Char × Nat) := [('x', 2), ('u', 4), ('U', 8)]

/-- A digit of an octal number. -/
def isOctal (c : Char) : Bool := '0' ≤ c && c ≤ '7'

/-- The value of octal digits. -/
def octalValue (cs : List Char) : Nat := cs.foldl (fun n c => n * 8 + (c.toNat - '0'.toNat)) 0

/-- What an escape stands for, given what follows the backslash; an unknown one stands for
itself. -/
def escape? : List Char → Option (List Char × List Char)
  | [] => none
  | '\n' :: rest => some ([], rest)
  | c :: rest =>
    match letterEscapes.lookup c, numberEscapes.lookup c with
    | some d, _ => some ([d], rest)
    | none, some n =>
      let digits := rest.take n
      if digits.length == n then
        (digits.foldlM (fun n c => (Json.hexValue? c).map fun d => n * 16 + d) 0).bind fun code =>
          if code < 0x110000 then
            let (d, rest) := Json.numbered code (rest.drop n)
            some ([d], rest)
          else none
      else none
    | none, none =>
      if isOctal c then
        let digits := ((c :: rest).take 3).takeWhile isOctal
        some ([Char.ofNat (octalValue digits)], (c :: rest).drop digits.length)
      else some (['\\', c], rest)

/-- The characters of a text up to its closing mark. -/
def textFrom (raw : Bool) (quote : List Char) : Nat → List Char → Reading (List Char)
  | 0, _ => failure
  | fuel + 1, done => do
    let cs ← get
    if quote.isPrefixOf cs then
      advance quote.length
      return done.reverse
    match cs with
    | [] => failure
    | '\\' :: rest =>
      if raw then
        match rest with
        | [] => failure
        | c :: rest =>
          set rest
          textFrom raw quote fuel (c :: '\\' :: done)
      else
        match escape? rest with
        | some (chars, rest) =>
          set rest
          textFrom raw quote fuel (chars.reverse ++ done)
        | none => failure
    | c :: rest =>
      if c == '\n' && quote.length == 1 then failure
      set rest
      textFrom raw quote fuel (c :: done)

/-- The marks that open a text, longer ones first. -/
def quotes : List String := ["'''", "\"\"\"", "'", "\""]

/-- A text in one pair of quotes. -/
def quotedText (raw : Bool) : Reading (List Char) := do
  let cs ← get
  match quotes.find? fun q => q.toList.isPrefixOf cs with
  | some q =>
    advance q.length
    textFrom raw q.toList (cs.length + 1) []
  | none => failure

/-- A text, perhaps marked as raw. -/
def onePiece : Reading (List Char) := do
  match ← get with
  | mark :: quote :: _ =>
    let isMark := "rRuU".toList.contains mark && (quote == '\'' || quote == '"')
    if isMark then advance 1
    quotedText (isMark && (mark == 'r' || mark == 'R'))
  | _ => failure

/-- Texts side by side are one text. -/
def pieces (inBrackets : Bool) : Nat → Reading (List Char)
  | 0 => failure
  | fuel + 1 => do
    let first ← onePiece
    let more ← ((do
      gap inBrackets
      pieces inBrackets fuel) <|> pure [])
    return first ++ more

/-! ## Numbers -/

/-- The bases that a letter after a zero marks. -/
def bases : List (Char × Nat) :=
  [('x', 16), ('X', 16), ('o', 8), ('O', 8), ('b', 2), ('B', 2)]

/-- The digits without the underscores, each of which must stand between two digits. -/
def plainDigits? : List Char → Option (List Char)
  | [] => some []
  | '_' :: _ => none
  | [c] => some [c]
  | c :: '_' :: rest =>
    match rest with
    | [] => none
    | d :: more => (plainDigits? (d :: more)).map (c :: ·)
  | c :: rest => (plainDigits? rest).map (c :: ·)

/-- A number without sign.  Underscores between digits mean nothing. -/
def number : Reading Datum := do
  let cs ← get
  let digits (cs : List Char) := cs.takeWhile fun c => c.isDigit || c == '_'
  match cs with
  | '0' :: mark :: rest =>
    if let some base := bases.lookup mark then
      let run := rest.takeWhile fun c => c.isAlphanum || c == '_'
      set (rest.drop run.length)
      let run := if run.head? == some '_' then run.drop 1 else run
      let value := (plainDigits? run).bind fun digits => digits.foldlM (fun n c =>
        ((Json.hexValue? c).filter (· < base)).map fun d => n * base + d) 0
      match run, value with
      | _ :: _, some n => return ← pure (.int (n : Nat))
      | _, _ => return ← failure
  | _ => pure ()
  let whole := digits cs
  let rest := cs.drop whole.length
  let (fraction, rest, pointed) := match rest with
    | '.' :: rest => (digits rest, rest.drop (digits rest).length, true)
    | rest => ([], rest, false)
  let some whole := plainDigits? whole | failure
  let some fraction := plainDigits? fraction | failure
  if whole.isEmpty && fraction.isEmpty then failure
  match Json.exponent? rest with
  | some (e, rest) =>
    set rest
    return .float (Decimal.nearest (Json.decimalValue (whole ++ fraction))
      (e - Int.ofNat fraction.length))
  | none =>
    set rest
    if pointed then
      return .float (Decimal.nearest (Json.decimalValue (whole ++ fraction))
        (-Int.ofNat fraction.length))
    let value := Json.decimalValue whole
    -- a number other than zero does not start with one
    if whole.head? == some '0' && value != 0 then failure
    return .int (value : Nat)

/-- The number with the opposite sign. -/
def negated : Datum → Option Datum
  | .int n => some (.int (-n))
  | .float x => some (.float (-x))
  | _ => none

/-! ## Values -/

/-- Whether a value can be a key or the member of a set. -/
def isKey : Datum → Bool
  | .list _ | .set _ | .mapping _ => false
  | _ => true

/-- The words that are values. -/
def words : List (String × Datum) :=
  [("True", .bool true), ("False", .bool false), ("None", .null)]

/-- The word at the start of a text. -/
def wordAt (cs : List Char) : String :=
  String.ofList (cs.takeWhile fun c => c.isAlphanum || c == '_')

mutual

/-- A value. -/
def value (inBrackets : Bool) : Nat → Reading Datum
  | 0 => failure
  | fuel + 1 => do
    match ← peek with
    | some '[' =>
      advance 1
      return .list (← items "]" fuel).1
    | some '(' =>
      advance 1
      match ← items ")" fuel with
      | ([item], false) => return item
      | (found, _) => return .tuple found
    | some '\x7b' =>
      advance 1
      gap true
      if ← accepts "\x7d" then return .mapping []
      (do return .mapping (Datum.ofEntries (← entries fuel))) <|> (do
        let (members, _) ← items "\x7d" fuel
        if members.all isKey then return .set (Datum.ofMembers members) else failure)
    | some '-' =>
      advance 1
      gap inBrackets
      match negated (← value inBrackets fuel) with
      | some d => return d
      | none => failure
    | some c =>
      let cs ← get
      match words.lookup (wordAt cs) with
      | some d =>
        advance (wordAt cs).length
        return d
      | none =>
        if c.isDigit || c == '.' then number
        else return .text (String.ofList (← pieces inBrackets (cs.length + 1)))
    | none => failure

/-- Values separated by commas through a closing bracket, and whether a comma stands among them. -/
def items (close : String) : Nat → Reading (List Datum × Bool)
  | 0 => failure
  | fuel + 1 => do
    gap true
    if ← accepts close then return ([], false)
    let item ← value true fuel
    gap true
    if ← accepts "," then
      let (rest, _) ← items close fuel
      return (item :: rest, true)
    expect close
    return ([item], false)

/-- Entries separated by commas through a closing brace. -/
def entries : Nat → Reading (List (Datum × Datum))
  | 0 => failure
  | fuel + 1 => do
    gap true
    if ← accepts "\x7d" then return []
    let key ← value true fuel
    if !isKey key then failure
    gap true
    expect ":"
    gap true
    let item ← value true fuel
    gap true
    if ← accepts "," then return (key, item) :: (← entries fuel)
    expect "\x7d"
    return [(key, item)]

end

/-! ## Files -/

/-- Moves on over the rest of a line without a statement. -/
def endOfLine : Reading Unit := do
  gap false
  if (← peek) == some '#' then modify (List.dropWhile (· != '\n'))
  match ← peek with
  | none => pure ()
  | some '\n' => advance 1
  | some _ => failure

/-- A name bound to a value. -/
def assignment : Reading (String × Datum) := do
  let cs ← get
  let name := wordAt cs
  if (name.toList.head?.map Char.isDigit).getD true || (words.lookup name).isSome then failure
  advance name.length
  gap false
  expect "="
  gap false
  let item ← value false (2 * cs.length + 2)
  endOfLine
  return (name, item)

/-- The names bound from here on, in order. -/
def bindingsFrom : Nat → Reading (List (String × Datum))
  | 0 => failure
  | fuel + 1 => do
    if (← peek).isNone then return []
    let found ← (do
      let binding ← assignment
      return [binding]) <|> giveNone
    return found ++ (← bindingsFrom fuel)
where
  /-- A line without a statement. -/
  giveNone : Reading (List (String × Datum)) := do
    endOfLine
    return []

/-- The names that a file binds, in order; none if it is malformed or raises an error. -/
def parse? (cs : List Char) : Option (List (String × Datum)) :=
  let cs := match cs with
    | '\uFEFF' :: cs => cs
    | cs => cs
  ((bindingsFrom (cs.length + 1)).run cs).map Prod.fst

/-- The value that a name is bound to in the end. -/
def find? (bindings : List (String × Datum)) (name : String) : Option Datum :=
  bindings.reverse.lookup name

end ComponentDocs.Assignments
