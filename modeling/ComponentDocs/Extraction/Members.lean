import ComponentDocs.DocComment
import ComponentDocs.Extraction.Defaults
import ComponentDocs.Extraction.Selection
import ComponentDocs.Record
import ComponentDocs.TypeText

/-!
# Members

The properties that a declaration itself lists.  The documentation of a member is the first
documentation comment in the run of comments directly above it.
-/

namespace ComponentDocs.Extraction

open Source

/-- The properties of a body from one item on, each with the comments directly above it; `run` are
the comments since the last other item. -/
def documentedFrom (run : List String) : List BodyItem → List (PropertySignature × List String)
  | [] => []
  | .comment text _ :: rest => documentedFrom (run ++ [text]) rest
  | .property signature _ _ :: rest => (signature, run) :: documentedFrom [] rest
  | .other _ _ :: rest => documentedFrom [] rest

/-- The properties of a body, each with the comments directly above it. -/
def documented (body : List BodyItem) : List (PropertySignature × List String) :=
  documentedFrom [] body

/-- What extraction of one component goes by. -/
structure Setting where
  selection : PropertySelection := {}
  /-- The namespace prefixes that displayed types leave out. -/
  namespaces : List String := ["React."]
  /-- The default values that the component states. -/
  defaults : List (String × String) := []

/-- The documentation comment among the comments above a member. -/
def docComment? (comments : List String) : Option DocComment :=
  (comments.find? DocComment.isDocComment).map DocComment.parse

/-- The type of a property without annotation. -/
def defaultType : String := "any"

/-- The property that a signature describes, if it is to be listed. -/
def property? (setting : Setting) (signature : PropertySignature) (comments : List String) :
    Option Property :=
  let name := Naming.unquote signature.name
  if name.toList.head? == some '_' && !setting.selection.privateProperties then none
  else
    let doc := docComment? comments
    some {
      name
      type := TypeText.display setting.namespaces (signature.type.getD defaultType)
      required := !signature.optional
      description :=
        if setting.selection.descriptions then (doc.map DocComment.description).filter (· ≠ "")
        else none
      defaultValue :=
        if setting.selection.defaultValues then
          defaultOf? setting.defaults name <|> doc.bind DocComment.defaultValue?
        else none }

/-- The properties that a declaration itself lists. -/
def members (setting : Setting) (declaration : Declaration) : List Property :=
  (declaration.bodies.flatMap documented).filterMap fun (signature, comments) =>
    property? setting signature comments

/-- The properties with those that repeat an earlier name left out. -/
def firstOfEachName (properties : List Property) : List Property :=
  properties.foldl (fun done p => if done.any (·.name = p.name) then done else done ++ [p]) []

end ComponentDocs.Extraction
