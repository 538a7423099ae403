import ComponentDocs.Path
import ComponentDocs.Record

/-!
# Categories of paths

A component belongs to the category that a directory on its path is named after.
-/

namespace ComponentDocs.Category

/-- The path segments that stand for categories; an earlier one wins over a later one. -/
def segments : List (String × String) :=
  [("atoms", "Atoms"), ("molecules", "Molecules"), ("organisms", "Organisms"),
    ("templates", "Templates"), ("layout", "Layout")]

/-- The category of a component at a path. -/
def ofPath (path : Path) : String :=
  ((segments.find? fun (segment, _) => path.parts.contains segment).map Prod.snd).getD
    defaultCategory

end ComponentDocs.Category
