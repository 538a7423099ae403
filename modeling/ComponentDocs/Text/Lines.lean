/-!
# Lines

Splitting a text at its line boundaries: line feed, carriage return, the pair of both, vertical
tab, form feed, the file, group and record separators, next line, and the line and paragraph
separators.  A boundary at the end opens no further line.
-/

namespace ComponentDocs.Text

/-- A character that ends a line. -/
def isLineBreak (c : Char) : Bool :=
  let n := c.toNat
  (0x0A ≤ n && n ≤ 0x0D) || (0x1C ≤ n && n ≤ 0x1E) || n == 0x85 || n == 0x2028 || n == 0x2029

/-- The lines of a text whose first line starts with `current`, held last character first. -/
def linesAfter (current : List Char) : List Char → List (List Char)
  | [] => if current.isEmpty then [] else [current.reverse]
  | '\r' :: '\n' :: rest => current.reverse :: linesAfter [] rest
  | c :: rest =>
    if isLineBreak c then current.reverse :: linesAfter [] rest
    else linesAfter (c :: current) rest

/-- The lines of a text, without their boundaries. -/
def lines (cs : List Char) : List (List Char) := linesAfter [] cs

/-- The lines joined by line feeds. -/
def joinLines : List (List Char) → List Char
  | [] => []
  | [line] => line
  | line :: rest => line ++ '\n' :: joinLines rest

end ComponentDocs.Text
