import ComponentDocs.Time.Calendar

/-!
# Records

What is documented about a component: its properties, usage examples, accessibility guidance and
the record that holds them, together with the curated form of a property, the facts known about
a source file, and the order in which properties are listed.
-/

namespace ComponentDocs

/-- One property of a component's interface. -/
structure Property where
  name : String
  type : String
  required : Bool
  description : Option String := none
  defaultValue : Option String := none
  deriving DecidableEq, Repr, Inhabited

/-- A curated property; what it leaves unset stays as extracted. -/
structure CuratedProperty where
  name : String
  type : Option String := none
  required : Option Bool := none
  description : Option String := none
  defaultValue : Option String := none
  deriving DecidableEq, Repr

/-- A usage example. -/
structure UsageExample where
  name : String
  code : String
  description : Option String := none
  deriving DecidableEq, Repr

/-- Accessibility guidance. -/
structure Accessibility where
  notes : List String := []
  keyboardNavigation : Option String := none
  screenReader : Option String := none
  colorContrast : Option String := none
  focusManagement : Option String := none
  deriving DecidableEq, Repr

/-- What static analysis tells about one source file. -/
structure ComponentFacts where
  filePath : String
  componentName : String
  propsTypeName : String
  hasDefaultExport : Bool
  hasNamedExport : Bool
  externalDependencies : List String
  deriving DecidableEq, Repr

/-- The documentation of one component. -/
structure ComponentRecord where
  id : String
  name : String
  description : String
  category : String
  filePath : String
  properties : List Property := []
  tokens : List String := []
  examples : List UsageExample := []
  accessibility : Option Accessibility := none
  notes : Option (List String) := none
  deprecatedProperties : Option (List String) := none
  migrationGuide : Option String := none
  version : Option String := none
  lastModified : Option DateTime := none
  deriving DecidableEq, Repr

/-- The categories of components. -/
def categories : List String :=
  ["Atoms", "Molecules", "Organisms", "Templates", "Layout", "Components"]

/-- The category of a component whose path names none. -/
def defaultCategory : String := "Components"

/-- Whether the first property is listed no later than the second: required ones come first, then
names decide, by code points. -/
def Property.precedes (p q : Property) : Bool :=
  if p.required = q.required then decide (p.name ≤ q.name) else p.required

/-- The properties in listing order; equal keys keep their order. -/
def sortProperties (props : List Property) : List Property :=
  props.mergeSort Property.precedes

end ComponentDocs
