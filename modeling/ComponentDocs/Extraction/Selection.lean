/-!
# Selection

Which properties a record lists, and what it says of each.
-/

namespace ComponentDocs

/-- What is listed of the properties of a component. -/
structure PropertySelection where
  /-- Whether properties whose name starts with an underscore are listed. -/
  privateProperties : Bool := false
  /-- Whether the properties of base types are listed. -/
  inheritedProperties : Bool := false
  /-- Whether descriptions are taken from documentation comments. -/
  descriptions : Bool := true
  /-- Whether default values are looked for. -/
  defaultValues : Bool := true
  deriving DecidableEq, Repr

end ComponentDocs
