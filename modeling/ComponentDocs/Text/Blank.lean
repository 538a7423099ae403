/-!
# Blank characters

Which characters count as white space, and the three operations that depend on it: trimming a
text at either end, and collapsing every run of blanks to one space.  The class holds Unicode's
`White_Space` characters together with the four information separators U+001C to U+001F.
-/

namespace ComponentDocs.Text

/-- A white space character: a Unicode space, a line or paragraph break, a tab, a form feed or
one of the information separators. -/
def isBlank (c : Char) : Bool :=
  let n := c.toNat
  (0x09 ≤ n && n ≤ 0x0D) || (0x1C ≤ n && n ≤ 0x20) || n == 0x85 || n == 0xA0 || n == 0x1680 ||
    (0x2000 ≤ n && n ≤ 0x200A) || n == 0x2028 || n == 0x2029 || n == 0x202F || n == 0x205F ||
    n == 0x3000

/-- The text without its leading blanks. -/
def trimStart (cs : List Char) : List Char := cs.dropWhile isBlank

/-- The text without its trailing blanks. -/
def trimEnd (cs : List Char) : List Char := cs.foldr (fun c rest =>
  if rest.isEmpty && isBlank c then [] else c :: rest) []

/-- The text without blanks at either end. -/
def trim (cs : List Char) : List Char := trimEnd (trimStart cs)

/-- Every maximal run of blanks replaced by one space. -/
def squeeze : List Char → List Char
  | [] => []
  | c :: cs =>
    if isBlank c then
      match squeeze cs with
      | ' ' :: rest => ' ' :: rest
      | rest => ' ' :: rest
    else c :: squeeze cs

/-- The text with every run of blanks collapsed to one space and none left at the ends. -/
def collapse (cs : List Char) : List Char := trim (squeeze cs)

/-- `trim` on strings. -/
def trimmed (s : String) : String := String.ofList (trim s.toList)

/-- `collapse` on strings. -/
def collapsed (s : String) : String := String.ofList (collapse s.toList)

end ComponentDocs.Text
