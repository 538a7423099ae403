import ComponentDocs.Source.Cursor
import ComponentDocs.Source.Syntax

/-!
# Readers

A reader takes a piece of source text from a place on and says where it ends, or fails.  Readers of
tokens pass over the gap in front of them, so the place after a reader is the end of its last
token.  Repetition ends as soon as a round fails or does not move on.
-/

namespace ComponentDocs.Source

/-- A function from a place to a value and the place after it. -/
abbrev Reader := StateT Cursor Option

/-- The first function found in some piece of source text. -/
abbrev Found := Option FunctionShape

namespace Reader

variable {α : Type}

/-! ## Repetition -/

/-- Up to the given number of rounds. -/
def manyWith (p : Reader α) : Nat → Reader (List α)
  | 0 => pure []
  | n + 1 => fun here =>
    match p here with
    | none => some ([], here)
    | some (a, there) =>
      if there.left < here.left then
        (manyWith p n there).map fun (as, last) => (a :: as, last)
      else some ([], here)

/-- As many rounds as succeed; each uses up a character, which bounds their number. -/
def many (p : Reader α) : Reader (List α) := fun here => manyWith p (here.left + 1) here

/-- The value if there is one. -/
def option (p : Reader α) : Reader (Option α) := (some <$> p) <|> pure none

/-- Whether the reader succeeds; if so its text is used up. -/
def accepts (p : Reader α) : Reader Bool := ((fun _ => true) <$> p) <|> pure false

/-- Whether the reader succeeds here, without using up any text. -/
def ahead (p : Reader α) : Reader Bool := fun here => some ((p here).isSome, here)

/-- Reads for another value than the reader's own. -/
def giving {β : Type} (b : β) (p : Reader α) : Reader β := (fun _ => b) <$> p

/-- Fails unless the reader succeeds here; no text is used up. -/
def expect (p : Reader α) : Reader Unit := do
  if !(← ahead p) then failure

/-- Fails if the reader succeeds here. -/
def refuse (p : Reader α) : Reader Unit := do
  if ← ahead p then failure

/-- The first function in the results of several readings. -/
def firstOf (found : List Found) : Found := found.findSome? id

/-- One or more rounds separated by another reader, which may also stand after the last one. -/
def separated (p : Reader α) (separator : Reader Unit) : Reader (List α) := do
  let first ← p
  let rest ← many (separator *> p)
  let _ ← option separator
  return first :: rest

/-! ## Places -/

/-- The place of the next token. -/
def here : Reader Cursor := fun c => some (c.gap.after, c)

/-- The comments in front of the next token. -/
def comments : Reader (List Comment) := fun c => some (c.gap.comments, c)

/-- Whether a line ends before the next token. -/
def newlineAhead : Reader Bool := fun c => some (c.gap.newline, c)

/-- Fails if a line ends before the next token. -/
def sameLine : Reader Unit := do
  if ← newlineAhead then failure

/-- The text from an earlier place up to here. -/
def textFrom (start : Cursor) : Reader String := fun c => some (start.textTo c, c)

/-- The value of a reader together with its text. -/
def withText (p : Reader α) : Reader (α × String) := do
  let start ← here
  let a ← p
  return (a, ← textFrom start)

/-- The text of a reader. -/
def textOf (p : Reader α) : Reader String := Prod.snd <$> withText p

/-- The number of the line on which the last token ends. -/
def lastLine : Reader Nat := fun c => some (c.line, c)

/-- The characters from the next token on. -/
def upcoming : Reader (List Char) := fun c => some (c.gap.after.rest, c)

/-- Moves over the gap to the next token. -/
def skipGap : Reader Unit := fun c => some ((), c.gap.after)

/-- Moves on by some characters. -/
def advance (n : Nat) : Reader Unit := fun c => some ((), c.advance n)

/-! ## Tokens -/

/-- The given characters as the next token. -/
def symbol (s : String) : Reader Unit := fun c =>
  let next := c.gap.after
  if s.toList.isPrefixOf next.rest then some ((), next.advance s.length) else none

/-- A punctuation character, which no name contains. -/
def isPunctuation (c : Char) : Bool := ":;`\"'@#.,|^&<=>+-*/\\%?!~()[]\x7b\x7d".toList.contains c

/-- A character that a name can start with. -/
def startsName (c : Char) : Bool :=
  0x20 ≤ c.toNat && !isSpace c && !c.isDigit && !isPunctuation c

/-- A character that a name can go on with. -/
def continuesName (c : Char) : Bool := startsName c || c.isDigit

/-- A name or keyword. -/
def word : Reader String := fun c =>
  let next := c.gap.after
  match next.rest with
  | first :: _ =>
    if startsName first then
      let cs := next.rest.takeWhile continuesName
      some (String.ofList cs, next.advance cs.length)
    else none
  | [] => none

/-- The words that are no names of values. -/
def reservedWords : List String :=
  ["break", "case", "catch", "class", "const", "continue", "debugger", "default", "delete", "do",
    "else", "enum", "export", "extends", "false", "finally", "for", "function", "if", "import",
    "in", "instanceof", "new", "null", "return", "super", "switch", "this", "throw", "true", "try",
    "typeof", "var", "void", "while", "with"]

/-- A name of a value. -/
def name : Reader String := do
  let w ← word
  if reservedWords.contains w then failure
  return w

/-- The given keyword. -/
def keyword (k : String) : Reader Unit := do
  let w ← word
  if w ≠ k then failure

/-- One of the given keywords. -/
def oneOf (ks : List String) : Reader String := do
  let w ← word
  if !ks.contains w then failure
  return w

/-- The next word, or nothing if the next token is none. -/
def peekWord : Reader String := fun c =>
  match word c with
  | some (w, _) => some (w, c)
  | none => some ("", c)

/-! ## Statement ends -/

/-- Whether a line end before these characters can stand for a semicolon: they do not go on with
what stands before.  An opening parenthesis or bracket goes on with an expression only. -/
def canStartLine (inExpression : Bool) (cs : List Char) : Bool :=
  match cs with
  | [] => true
  | c :: rest =>
    if "`,.;*%><=?^|&/:".toList.contains c then false
    else if c == '(' || c == '[' then !inExpression
    else if c == '+' then rest.head? == some '+'
    else if c == '-' then rest.head? == some '-'
    else if c == '!' then rest.head? != some '='
    else
      let w := cs.takeWhile continuesName
      !(w == ['i', 'n'] || w == "instanceof".toList)

/-- A line end, a closing brace or the end of the text in the place of a semicolon. -/
def impliedSemicolon (inExpression : Bool) : Reader Unit := fun c =>
  let gap := c.gap
  let implied := match gap.after.rest with
    | [] => true
    | '\x7d' :: _ => true
    | cs => gap.newline && canStartLine inExpression cs
  if implied then some ((), c) else none

/-- A semicolon, written or implied. -/
def semicolon (inExpression : Bool) : Reader Unit :=
  symbol ";" <|> impliedSemicolon inExpression

end Reader

end ComponentDocs.Source
