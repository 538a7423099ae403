import ComponentDocs.Text.Blank

/-!
# Displayed types

A type is shown as it is written in the source, less what only says where a name comes from:
`import("…").` qualifiers and the configured namespace prefixes.  Runs of blanks collapse.
-/

namespace ComponentDocs.TypeText

/-- What follows an `import(…).` qualifier at the start of the text: the parentheses hold at
least one character, and none that closes them. -/
def afterQualifier? (cs : List Char) : Option (List Char) :=
  if "import(".toList.isPrefixOf cs then
    let inner := cs.drop 7
    match inner.takeWhile (· != ')'), inner.dropWhile (· != ')') with
    | _ :: _, ')' :: '.' :: rest => some rest
    | _, _ => none
  else none

/-- The text without its `import(…).` qualifiers; the fuel bounds the number of steps. -/
def dropQualifiersWith : Nat → List Char → List Char
  | 0, cs => cs
  | _, [] => []
  | fuel + 1, c :: cs =>
    match afterQualifier? (c :: cs) with
    | some rest => dropQualifiersWith fuel rest
    | none => c :: dropQualifiersWith fuel cs

/-- The text without its `import(…).` qualifiers.  Each step uses up a character, so the length
is fuel enough. -/
def dropQualifiers (cs : List Char) : List Char := dropQualifiersWith cs.length cs

/-- The text without the occurrences of a word, found from left to right; `skip` counts the
characters of an occurrence still to be left out. -/
def eraseFrom (word : List Char) : Nat → List Char → List Char
  | _, [] => []
  | skip + 1, _ :: cs => eraseFrom word skip cs
  | 0, c :: cs =>
    if word.isPrefixOf (c :: cs) then eraseFrom word (word.length - 1) cs
    else c :: eraseFrom word 0 cs

/-- The text without the occurrences of a word; the empty word occurs nowhere. -/
def erase (word cs : List Char) : List Char :=
  if word.isEmpty then cs else eraseFrom word 0 cs

/-- The displayed form of a type text under the given namespace prefixes. -/
def display (namespaces : List String) (text : String) : String :=
  let bare := namespaces.foldl (fun cs word => erase word.toList cs) (dropQualifiers text.toList)
  String.ofList (Text.collapse bare)

end ComponentDocs.TypeText
