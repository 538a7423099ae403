import ComponentDocs.Curated

/-!
# Merging

Curated fields take the place of extracted ones.  Properties are merged by name, the last curated
one of a name counting: it changes the first extracted property of that name, and if there is none
it is added.
-/

namespace ComponentDocs

/-- The property with what a curated one states. -/
def CuratedProperty.apply (c : CuratedProperty) (p : Property) : Property :=
  { name := p.name
    type := (c.type.filter (· ≠ "")).getD p.type
    required := c.required.getD p.required
    description := c.description <|> p.description
    defaultValue := c.defaultValue <|> p.defaultValue }

/-- The property that a curated one states alone. -/
def CuratedProperty.toProperty (c : CuratedProperty) : Property :=
  c.apply ⟨c.name, "", false, none, none⟩

namespace Merging

/-- The curated properties with each name where it first stands, as it is last stated. -/
def byName (curated : List CuratedProperty) : List CuratedProperty :=
  curated.foldl (fun done c =>
    if done.any (·.name = c.name) then done.map fun d => if d.name = c.name then c else d
    else done ++ [c]) []

/-- The extracted properties with the curated ones of their names applied, and the curated ones
that are left over. -/
def applyAll (pending : List CuratedProperty) :
    List Property → List Property × List CuratedProperty
  | [] => ([], pending)
  | p :: rest =>
    match pending.find? (·.name = p.name) with
    | none =>
      let (merged, left) := applyAll pending rest
      (p :: merged, left)
    | some c =>
      let (merged, left) := applyAll (pending.filter (·.name ≠ p.name)) rest
      (c.apply p :: merged, left)

/-- Extracted and curated properties merged, in listing order. -/
def properties (extracted : List Property) (curated : List CuratedProperty) : List Property :=
  let (merged, left) := applyAll (byName curated) extracted
  sortProperties (merged ++ left.map CuratedProperty.toProperty)

end Merging

/-- The record with the curated fields in place; its path stays. -/
def Curated.apply (c : Curated) (base : ComponentRecord) : ComponentRecord :=
  { id := c.id.getD base.id
    name := c.name.getD base.name
    description := c.description.getD base.description
    category := c.category.getD base.category
    filePath := base.filePath
    properties := Merging.properties base.properties (c.properties.getD [])
    tokens := c.tokens.getD base.tokens
    examples := c.examples.getD base.examples
    accessibility := c.accessibility <|> base.accessibility
    notes := c.notes <|> base.notes
    deprecatedProperties := c.deprecatedProperties <|> base.deprecatedProperties
    migrationGuide := c.migrationGuide <|> base.migrationGuide
    version := c.version <|> base.version
    lastModified := c.lastModified <|> base.lastModified }

end ComponentDocs
