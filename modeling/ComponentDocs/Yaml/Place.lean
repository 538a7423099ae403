import ComponentDocs.Time.Display
import ComponentDocs.Text.Quoted

/-!
# Places in a YAML text

A place knows its line and column, since indentation has meaning.  Also the problems a text can
have: all faults of form are one, but a scalar that does not have the value its tag promises says
what is wrong.
-/

namespace ComponentDocs.Yaml

/-- Why a text cannot be cut into tokens. -/
inductive ScanProblem where
  | malformed
  /-- An escape names a number that no character has; far too large ones are told apart. -/
  | noCharacter (huge : Bool)
  deriving DecidableEq, Repr

/-- Why a text has no value. -/
inductive Problem where
  /-- The text is not well-formed, or a node does not fit its tag. -/
  | malformed
  /-- An escape names a number that no character has. -/
  | noCharacter (huge : Bool)
  /-- A number without a digit or a sign. -/
  | emptyNumber
  | notInteger (base : Nat) (text : String)
  | notFloat (text : String)
  | notBoolean (text : String)
  | notMoment
  | calendar (error : CalendarError)
  deriving DecidableEq, Repr

/-- A problem of the tokens as one of the whole text. -/
def ScanProblem.problem : ScanProblem → Problem
  | .malformed => .malformed
  | .noCharacter huge => .noCharacter huge

/-- The message of a problem. -/
def Problem.message : Problem → String
  | .malformed => "the text is malformed"
  | .noCharacter false => "chr() arg not in range(0x110000)"
  | .noCharacter true => "Python int too large to convert to C int"
  | .emptyNumber => "string index out of range"
  | .notInteger base text =>
    "invalid literal for int() with base " ++ toString base ++ ": " ++ Text.quoted text
  | .notFloat text => "could not convert string to float: " ++ Text.quoted text
  | .notBoolean text => Text.quoted text
  | .notMoment => "'NoneType' object has no attribute 'groupdict'"
  | .calendar error => error.message

/-- A place in a text. -/
structure Place where
  rest : List Char
  index : Nat := 0
  line : Nat := 0
  column : Nat := 0

/-- A character that ends a line.  Carriage returns are expected to be unified before. -/
def isBreak (c : Char) : Bool := c == '\n' || c == '\u0085' || c == '\u2028' || c == '\u2029'

/-- A blank within a line. -/
def isBlank (c : Char) : Bool := c == ' ' || c == '\t'

/-- Whether the text or the line ends before this character. -/
def endsLine : Option Char → Bool
  | none => true
  | some c => isBreak c

/-- Whether the text, the line or a word ends before this character. -/
def endsWord : Option Char → Bool
  | none => true
  | some c => isBreak c || isBlank c

namespace Place

/-- The next character. -/
def peek (p : Place) : Option Char := p.rest.head?

/-- The character after some others. -/
def peekAt (p : Place) (n : Nat) : Option Char := p.rest[n]?

/-- The place after the next character; a byte order mark takes no column. -/
def next (p : Place) : Place :=
  match p.rest with
  | [] => p
  | c :: rest =>
    if isBreak c then ⟨rest, p.index + 1, p.line + 1, 0⟩
    else if c == '\uFEFF' then ⟨rest, p.index + 1, p.line, p.column⟩
    else ⟨rest, p.index + 1, p.line, p.column + 1⟩

/-- The place after some characters. -/
def advance : Nat → Place → Place
  | 0, p => p
  | n + 1, p => advance n p.next

/-- Whether three given characters stand here as a word of their own. -/
def atMark (p : Place) (mark : Char) : Bool :=
  p.rest.take 3 == [mark, mark, mark] && endsWord (p.peekAt 3)

/-- Whether a mark between documents stands here. -/
def atSeparator (p : Place) : Bool := p.atMark '-' || p.atMark '.'

/-- A line end as the value of a scalar has it, with the place after it. -/
def lineBreak? (p : Place) : Option (Char × Place) :=
  match p.peek with
  | some c =>
    if isBreak c then some (if c == '\u0085' then '\n' else c, p.next) else none
  | none => none

/-- The place after the characters with a property. -/
def skipWhile (property : Char → Bool) (p : Place) : Place :=
  p.advance (p.rest.takeWhile property).length

end Place

/-- Reading from a place on. -/
abbrev Reading := StateT Place (Except ScanProblem)

namespace Reading

/-- Fails as malformed. -/
def malformed {α : Type} : Reading α := throw .malformed

/-- Fails unless the condition holds. -/
def require (condition : Bool) : Reading Unit := if condition then pure () else malformed

/-- The next character. -/
def peek : Reading (Option Char) := do return (← get).peek

/-- Moves on by some characters. -/
def advance (n : Nat) : Reading Unit := modify (Place.advance n)

/-- The characters with a property, used up. -/
def takeWhile (property : Char → Bool) : Reading (List Char) := do
  let cs := (← get).rest.takeWhile property
  advance cs.length
  return cs

/-- Moves on over spaces. -/
def skipSpaces : Reading Unit := modify (Place.skipWhile (· == ' '))

/-- Moves on over a comment, if one starts here. -/
def skipComment : Reading Unit := do
  if (← peek) == some '#' then modify (Place.skipWhile fun c => !isBreak c)

/-- Moves on to the next line, over spaces and a comment only. -/
def endOfLine : Reading Unit := do
  skipSpaces
  skipComment
  require (endsLine (← peek))
  match (← get).lineBreak? with
  | some (_, p) => set p
  | none => pure ()

end Reading

end ComponentDocs.Yaml
