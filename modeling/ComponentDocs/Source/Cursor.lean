/-!
# Cursors

A place in a source text, and what lies between two tokens: blanks and comments.  Comments are
collected with the line on which they start; whether a line ended on the way is remembered, since
a line end can stand for a semicolon.
-/

namespace ComponentDocs.Source

/-- A place in a source text. -/
structure Cursor where
  /-- The characters from here on. -/
  rest : List Char
  /-- How many they are. -/
  left : Nat
  /-- The number of the line, counted from one. -/
  line : Nat

/-- The start of a text. -/
def Cursor.start (cs : List Char) : Cursor := ⟨cs, cs.length, 1⟩

/-- The text from one place up to a later one. -/
def Cursor.textTo (here there : Cursor) : String :=
  String.ofList (here.rest.take (here.left - there.left))

/-- The place after the next character. -/
def Cursor.next (here : Cursor) : Cursor :=
  match here.rest with
  | [] => here
  | c :: rest => ⟨rest, here.left - 1, if c == '\n' then here.line + 1 else here.line⟩

/-- The place after some characters. -/
def Cursor.advance : Nat → Cursor → Cursor
  | 0, here => here
  | n + 1, here => Cursor.advance n here.next

/-- A character that separates tokens. -/
def isSpace (c : Char) : Bool :=
  let n := c.toNat
  n == 0x20 || (0x09 ≤ n && n ≤ 0x0D) || n == 0xA0 || n == 0x1680 || (0x2000 ≤ n && n ≤ 0x200B) ||
    n == 0x2028 || n == 0x2029 || n == 0x202F || n == 0x205F || n == 0x2060 || n == 0x3000 ||
    n == 0xFEFF

/-- A character that ends a line comment. -/
def endsLineComment (c : Char) : Bool :=
  c == '\n' || c == '\r' || c == '\u2028' || c == '\u2029'

/-- A comment and the line on which it starts. -/
structure Comment where
  text : String
  line : Nat

/-- What lies between two tokens: the place after it, its comments, and whether a line ended
outside of them. -/
structure Gap where
  after : Cursor
  comments : List Comment
  newline : Bool

/-- Inside which comment a gap is being read; the text so far is held last character first. -/
inductive GapMode where
  | blank
  | lineComment (text : List Char) (line : Nat)
  | blockComment (text : List Char) (line : Nat)

/-- Whether a slash ends the block comment with the given text, held last character first: a star
stands before it that is not the one of the opening mark. -/
def closesBlock : List Char → Bool
  | '*' :: _ :: _ :: _ => true
  | _ => false

/-- Reads a gap from the characters given, with the comments so far held last one first. -/
def readGap (mode : GapMode) (comments : List Comment) (newline : Bool) (left line : Nat) :
    List Char → Gap
  | [] =>
    let comments := match mode with
      | .blank => comments
      | .lineComment text n => ⟨String.ofList text.reverse, n⟩ :: comments
      | .blockComment text n => ⟨String.ofList text.reverse, n⟩ :: comments
    ⟨⟨[], left, line⟩, comments.reverse, newline⟩
  | c :: rest =>
    let below := if c == '\n' then line + 1 else line
    match mode with
    | .blank =>
      if c == '/' && rest.head? == some '/' then
        readGap (.lineComment ['/'] line) comments newline (left - 1) line rest
      else if c == '/' && rest.head? == some '*' then
        readGap (.blockComment ['/'] line) comments newline (left - 1) line rest
      else if isSpace c then readGap .blank comments (newline || c == '\n') (left - 1) below rest
      else ⟨⟨c :: rest, left, line⟩, comments.reverse, newline⟩
    | .lineComment text n =>
      if endsLineComment c then
        readGap .blank (⟨String.ofList text.reverse, n⟩ :: comments) (newline || c == '\n')
          (left - 1) below rest
      else readGap (.lineComment (c :: text) n) comments newline (left - 1) line rest
    | .blockComment text n =>
      if c == '/' && closesBlock text then
        readGap .blank (⟨String.ofList (c :: text).reverse, n⟩ :: comments) newline
          (left - 1) line rest
      else readGap (.blockComment (c :: text) n) comments newline (left - 1) below rest

/-- The gap at a place. -/
def Cursor.gap (here : Cursor) : Gap :=
  match here.rest with
  | c :: _ =>
    -- most tokens follow each other directly or after one space
    if isSpace c || c == '/' then readGap .blank [] false here.left here.line here.rest
    else ⟨here, [], false⟩
  | [] => ⟨here, [], false⟩

end ComponentDocs.Source
