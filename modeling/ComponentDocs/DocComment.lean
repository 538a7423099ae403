import ComponentDocs.Text.Blank
import ComponentDocs.Text.Lines

/-!
# Documentation comments

A documentation comment is a block comment that opens with two stars.  Its lines lose a leading
star; those before the first tag are the description, and a tag line opens the text of a tag,
which later lines continue.
-/

namespace ComponentDocs

/-- The description and the tags of a documentation comment.  Tags stand in the order of their
first appearance, each with the text of its last one. -/
structure DocComment where
  description : String
  tags : List (String × String)
  deriving DecidableEq, Repr

namespace DocComment

/-- Whether a comment is a documentation comment: it opens with two stars and is not empty. -/
def isDocComment (comment : String) : Bool :=
  "/**".toList.isPrefixOf comment.toList && !"/**/".toList.isPrefixOf comment.toList

/-- What stands between the opening and the closing mark. -/
def body (comment : List Char) : List Char :=
  let inner := comment.drop 3
  if ['*', '/'].isSuffixOf inner then inner.take (inner.length - 2) else inner

/-- A line without its leading star, the blanks before it and one blank after it. -/
def withoutStar (line : List Char) : List Char :=
  match Text.trimStart line with
  | '*' :: rest =>
    match rest with
    | c :: more => if Text.isBlank c then more else rest
    | [] => []
  | _ => line

/-- The name and the text of a tag line, given what follows the `@`. -/
def splitTag (cs : List Char) : List Char × List Char :=
  (cs.takeWhile (· != ' '), Text.trim ((cs.dropWhile (· != ' ')).drop 1))

/-- The association list with the value of one key set: in place where the key is known, at the
end otherwise. -/
def setTag (name text : List Char) :
    List (List Char × List Char) → List (List Char × List Char)
  | [] => [(name, text)]
  | (key, value) :: rest =>
    if key = name then (name, text) :: rest else (key, value) :: setTag name text rest

/-- What has been read of a comment: the description lines, the tags, and the tag whose text the
next line continues. -/
structure Draft where
  lines : List (List Char) := []
  tags : List (List Char × List Char) := []
  current : Option (List Char) := none

/-- The draft after one more line. -/
def Draft.addLine (draft : Draft) (raw : List Char) : Draft :=
  let line := Text.trimEnd (withoutStar raw)
  match Text.trimStart line with
  | '@' :: rest =>
    let (name, text) := splitTag rest
    { draft with tags := setTag name text draft.tags, current := some name }
  | stripped =>
    match draft.current with
    | none => { draft with lines := draft.lines ++ [line] }
    | some name =>
      if stripped.isEmpty then draft
      else
        let before := (draft.tags.lookup name).getD []
        { draft with tags := setTag name (Text.trim (before ++ ' ' :: stripped)) draft.tags }

/-- The draft of a whole comment. -/
def Draft.ofComment (comment : List Char) : Draft :=
  (Text.lines (body comment)).foldl Draft.addLine {}

/-- Reads a documentation comment. -/
def parse (comment : String) : DocComment :=
  let draft := Draft.ofComment comment.toList
  { description := String.ofList (Text.trim (Text.joinLines draft.lines))
    tags := draft.tags.map fun (name, text) => (String.ofList name, String.ofList text) }

/-- The text of a tag, unless it is empty. -/
def tagText? (doc : DocComment) (name : String) : Option String :=
  (doc.tags.lookup name).filter (· ≠ "")

/-- The default value that the comment states: the first non-empty one of its `default` and its
`defaultValue` tag. -/
def defaultValue? (doc : DocComment) : Option String :=
  doc.tagText? "default" <|> doc.tagText? "defaultValue"

end DocComment

end ComponentDocs
