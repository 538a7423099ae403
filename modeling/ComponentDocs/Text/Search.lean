/-!
# Searching texts

Whether a text occurs in another one, and the replacement of all its occurrences.
-/

namespace ComponentDocs.Text

/-- Whether the word stands somewhere in the text; the empty word stands everywhere. -/
def occurs (word : List Char) : List Char → Bool
  | [] => word.isEmpty
  | c :: cs => word.isPrefixOf (c :: cs) || occurs word cs

/-- `occurs` on strings. -/
def contains (text word : String) : Bool := occurs word.toList text.toList

/-- The text with the occurrences of a word replaced, found from left to right; `skip` counts the
characters of an occurrence still to be left out. -/
def replaceFrom (word replacement : List Char) : Nat → List Char → List Char
  | _, [] => []
  | skip + 1, _ :: cs => replaceFrom word replacement skip cs
  | 0, c :: cs =>
    if word.isPrefixOf (c :: cs) then
      replacement ++ replaceFrom word replacement (word.length - 1) cs
    else c :: replaceFrom word replacement 0 cs

/-- The text with the occurrences of a word that is not empty replaced. -/
def replaceWord (word replacement text : String) : String :=
  String.ofList (replaceFrom word.toList replacement.toList 0 text.toList)

/-- The text with each occurrence of a character replaced. -/
def replaceChar (c : Char) (replacement text : String) : String :=
  String.ofList (text.toList.flatMap fun d => if d == c then replacement.toList else [d])

end ComponentDocs.Text
