import ComponentDocs.Naming
import ComponentDocs.Source.File
import ComponentDocs.Text.Blank
import ComponentDocs.Text.Search

/-!
# Default values

A component takes its properties apart in the pattern of its first parameter, and that pattern may
state default values.  The component is the first function whose pattern is an object pattern and
which is named like the component or typed with its props declaration.
-/

namespace ComponentDocs.Extraction

open Source

/-- The elements of the pattern of a function's first parameter, if it is an object pattern and
the function is known to be the component or its parameter is typed with the props. -/
def patternOf (propsName : String) (known : Bool) (shape : FunctionShape) :
    Option (List PatternElement) := do
  let first ← shape.firstParameter
  let elements ← first.pattern
  let typed := match first.typeClause with
    | some type => Text.contains type propsName
    | none => false
  if known || typed then return elements else none

/-- The pattern of a variable that holds the component. -/
def declaratorPattern (componentName propsName : String) (declarator : Declarator) :
    Option (List PatternElement) := do
  let shape ← declarator.earliestFunction
  let typed := match declarator.typeClause with
    | some type => Text.contains type propsName
    | none => false
  patternOf propsName (declarator.name = componentName || typed) shape

/-- The pattern of a definition that is the component. -/
def definitionPattern (componentName propsName : String) :
    Definition → Option (List PatternElement)
  | .function name shape => patternOf propsName (name = some componentName) shape
  | .bindings declarators => declarators.findSome? (declaratorPattern componentName propsName)
  | _ => none

/-- The pattern in which the component of a file takes its properties apart. -/
def componentPattern (file : ParsedFile) (componentName propsName : String) :
    Option (List PatternElement) :=
  file.definitions.findSome? (definitionPattern componentName propsName)

/-- The property key and the value that an element of a pattern states. -/
def elementDefault : PatternElement → Option (String × String)
  | .shorthand name value => some (name, Text.collapsed value)
  | .renamed key value => some (Naming.unquote key, Text.collapsed value)
  | .plain => none

/-- The default values that the component of a file states, in order. -/
def statedDefaults (file : ParsedFile) (componentName propsName : String) :
    List (String × String) :=
  ((componentPattern file componentName propsName).getD []).filterMap elementDefault

/-- The default value of a property: the last one stated. -/
def defaultOf? (defaults : List (String × String)) (name : String) : Option String :=
  defaults.reverse.lookup name

end ComponentDocs.Extraction
