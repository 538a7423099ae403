import ComponentDocs.Record
import ComponentDocs.Text.Blank

/-!
# Completeness

What a record lacks.  The findings are advice; a record with findings is still a record.
-/

namespace ComponentDocs

/-- The description of a component that nobody has described. -/
def stockDescription (name : String) : String := name ++ " component"

/-- What a record can lack. -/
inductive Shortcoming where
  | description
  | examples
  | tokens
  | propertyDescriptions
  deriving DecidableEq, Repr

/-- The wording of a finding. -/
def Shortcoming.message : Shortcoming → String
  | .description => "Missing meaningful description"
  | .examples => "No examples provided"
  | .tokens => "No design tokens specified"
  | .propertyDescriptions => "Some props missing descriptions"

/-- Whether a record says what the component is. -/
def ComponentRecord.isDescribed (r : ComponentRecord) : Bool :=
  let description := Text.trimmed r.description
  description ≠ "" && description ≠ stockDescription r.name

/-- Whether a property is described. -/
def Property.isDescribed (p : Property) : Bool := p.description.getD "" ≠ ""

/-- What a record lacks, always in the same order. -/
def ComponentRecord.shortcomings (r : ComponentRecord) : List Shortcoming :=
  (if r.isDescribed then [] else [.description]) ++
    (if r.examples.isEmpty then [.examples] else []) ++
    (if r.tokens.isEmpty then [.tokens] else []) ++
    (if r.properties.all Property.isDescribed then [] else [.propertyDescriptions])

/-- The findings on one component. -/
structure Finding where
  component : String
  shortcomings : List Shortcoming
  deriving DecidableEq, Repr

/-- The findings on the records that lack something. -/
def findings (records : List ComponentRecord) : List Finding :=
  (records.map fun r => (⟨r.name, r.shortcomings⟩ : Finding)).filter fun f => !f.shortcomings.isEmpty

end ComponentDocs
