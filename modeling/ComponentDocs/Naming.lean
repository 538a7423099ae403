import ComponentDocs.Text.Blank
import ComponentDocs.Text.Casing

/-!
# Component and declaration names

How names are derived: a component is named after its file in Pascal case, its props declaration
is the one called after the component or else the first with the right ending, and a quoted
property key stands for the text between its quotes.
-/

namespace ComponentDocs.Naming

/-- A character that separates the words of a file name. -/
def isWordBreak (c : Char) : Bool := c = '-' || c = '_' || Text.isBlank c

/-- The words of a text that starts inside the word `current`, held last character first. -/
def wordsAfter (current : List Char) : List Char → List (List Char)
  | [] => if current.isEmpty then [] else [current.reverse]
  | c :: rest =>
    if isWordBreak c then
      if current.isEmpty then wordsAfter [] rest else current.reverse :: wordsAfter [] rest
    else wordsAfter (c :: current) rest

/-- The non-empty words of a text, split at hyphens, underscores and blanks. -/
def words (cs : List Char) : List (List Char) := wordsAfter [] cs

/-- The word with its first character in upper case and the rest as it is. -/
def capitalize : List Char → List Char
  | [] => []
  | c :: rest => Text.upperChar c ++ rest

/-- The words joined without separators, each capitalised. -/
def pascalCase (s : String) : String :=
  String.ofList ((words s.toList).flatMap capitalize)

/-- A quotation mark that may stand around a property key. -/
def isQuote (c : Char) : Bool := c = '\'' || c = '"' || c = '`'

/-- The text between a pair of equal quotation marks, or the text itself where there is none. -/
def unquoteChars (cs : List Char) : List Char :=
  match cs with
  | first :: second :: rest =>
    if isQuote first && (second :: rest).getLast? == some first then (second :: rest).dropLast
    else cs
  | _ => cs

/-- `unquoteChars` on strings. -/
def unquote (s : String) : String := String.ofList (unquoteChars s.toList)

/-- The expected name if it is among the names, else the first one with the given ending. -/
def select (names : List String) (expected ending : String) : Option String :=
  if names.contains expected then some expected
  else names.find? fun name => ending.toList.isSuffixOf name.toList

end ComponentDocs.Naming
