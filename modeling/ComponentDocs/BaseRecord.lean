import ComponentDocs.Category
import ComponentDocs.Completeness
import ComponentDocs.Fault
import ComponentDocs.Naming
import ComponentDocs.Time.FileTime

/-!
# Base records

The record of a component that its path and its extracted properties alone give.
-/

namespace ComponentDocs.BaseRecord

/-- When the file at a path was changed, if there is one. -/
def changeTime (fs : FileSystem) (path : Path) : Except Fault (Option DateTime) :=
  match fs.modified? path with
  | none => .ok none
  | some t =>
    match FileTime.moment t with
    | .ok moment => .ok (some moment)
    | .error e => .error (.time e)

/-- The base record of the component at a path. -/
def build (fs : FileSystem) (path : Path) (properties : List Property) :
    Except Fault ComponentRecord := do
  let lastModified ← changeTime fs path
  let name := Naming.pascalCase path.stem
  return {
    id := Text.lowered path.stem
    name
    description := stockDescription name
    category := Category.ofPath path
    filePath := path.toString
    properties := sortProperties properties
    lastModified }

end ComponentDocs.BaseRecord
