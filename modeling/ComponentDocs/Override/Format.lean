import ComponentDocs.Assignments
import ComponentDocs.Curated
import ComponentDocs.Fault
import ComponentDocs.Yaml.Value

/-!
# Override files

Curated data about a component stands in a file beside it, in one of two formats: an assignment
file, or a data file in YAML or JSON.  Each format has its file names, in the order in which they
are looked for.
-/

namespace ComponentDocs

/-- A format of override files. -/
inductive OverrideFormat where
  | assignments
  | data
  deriving DecidableEq, Repr

/-- Why an override file could not be loaded. -/
inductive OverrideProblem where
  /-- The path of the file could not be used. -/
  | path (fault : Fault)
  | unreadable (name : String)
  | malformed (name : String)
  /-- A scalar of the file does not have the value its tag promises. -/
  | value (problem : Yaml.Problem)
  /-- An assignment file raises an error or cannot be read as one. -/
  | failed (name : String)
  | undefined (name : String)
  | notMapping (name : String)
  | curated (problem : CuratedProblem)
  deriving DecidableEq, Repr

/-- The message of a problem. -/
def OverrideProblem.message : OverrideProblem → String
  | .path fault => fault.message
  | .unreadable name => "Cannot read " ++ name ++ ": it is not well-formed UTF-8"
  | .malformed name => "Failed to parse " ++ name ++ ": the text is malformed"
  | .value problem => problem.message
  | .failed name => "Executing " ++ name ++ " failed: a statement fails"
  | .undefined name => name ++ " defines neither DOCS nor default"
  | .notMapping name => name ++ " does not define a mapping"
  | .curated problem => problem.message

namespace OverrideFormat

/-- The name of a format in configurations. -/
def name : OverrideFormat → String
  | assignments => "python"
  | data => "data"

/-- The formats that are always known, in the order in which they are asked. -/
def all : List OverrideFormat := [assignments, data]

/-- The endings of file names in a format. -/
def endings : OverrideFormat → List String
  | assignments => [".py"]
  | data => [".yml", ".yaml", ".json"]

/-- The path of a component's override files without their endings. -/
def base (component : Path) : Except Fault Path :=
  match component.withName? (component.stem ++ ".docs") with
  | some path => .ok path
  | none => .error (.unnamed component)

/-- The paths where a component's override file may be. -/
def candidates (format : OverrideFormat) (component : Path) : Except Fault (List Path) := do
  let base ← base component
  return format.endings.map fun ending => base.parent.child (base.name ++ ending)

/-- The override file of a component in a format. -/
def path? (format : OverrideFormat) (fs : FileSystem) (component : Path) :
    Except Fault (Option Path) := do
  fs.firstFile (← format.candidates component)

/-- The names that an assignment file can bind its data to. -/
def exportNames : List String := ["DOCS", "default"]

/-- The data of an assignment file. -/
def readAssignments (fs : FileSystem) (path : Path) : Except OverrideProblem Datum :=
  match fs.readText path with
  | .error _ => .error (.failed path.name)
  | .ok cs =>
    match Assignments.parse? cs with
    | none => .error (.failed path.name)
    | some bindings =>
      match exportNames.findSome? (Assignments.find? bindings) with
      | some d => .ok d
      | none => .error (.undefined path.name)

/-- The data of a data file; a null value stands for no entries. -/
def readData (fs : FileSystem) (path : Path) : Except OverrideProblem Datum := do
  let d ← match fs.readText path with
    | .error _ => throw (.unreadable path.name)
    | .ok cs =>
      if path.suffix = ".json" then
        match Json.parse? cs with
        | some d => pure d
        | none => throw (.malformed path.name)
      else
        match Yaml.parse cs with
        | .ok d => pure d
        | .error .malformed => throw (.malformed path.name)
        | .error e => throw (.value e)
  match d with
  | .null => return .mapping []
  | d => return d

/-- The data of an override file. -/
def read (format : OverrideFormat) (fs : FileSystem) (path : Path) :
    Except OverrideProblem Datum :=
  match format with
  | assignments => readAssignments fs path
  | data => readData fs path

/-- The curated record in an override file, and what is reported of it. -/
def loadFile (format : OverrideFormat) (fs : FileSystem) (path : Path) :
    Except OverrideProblem Curated × List Diagnostic :=
  match format.read fs path with
  | .error e => (.error e, [])
  | .ok (.mapping entries) =>
    match Curated.parse path.toString entries with
    | (.ok curated, diagnostics) => (.ok curated, diagnostics)
    | (.error e, diagnostics) => (.error (.curated e), diagnostics)
  | .ok _ => (.error (.notMapping path.name), [])

/-- The curated record of a component in a format; without a file nothing is stated. -/
def load (format : OverrideFormat) (fs : FileSystem) (component : Path) :
    Except OverrideProblem Curated × List Diagnostic :=
  match format.path? fs component with
  | .error e => (.error (.path e), [])
  | .ok none => (.ok {}, [])
  | .ok (some path) => format.loadFile fs path

end OverrideFormat

/-- The curated record of a component: that of the first format with a file.  A file that cannot
be loaded is reported and states nothing. -/
def curatedFor (fs : FileSystem) (component : Path) :
    List OverrideFormat → Except Fault Curated × List Diagnostic
  | [] => (.ok {}, [])
  | format :: rest =>
    match format.path? fs component with
    | .error e => (.error e, [])
    | .ok none => curatedFor fs component rest
    | .ok (some path) =>
      match format.loadFile fs path with
      | (.ok curated, diagnostics) => (.ok curated, diagnostics)
      | (.error e, diagnostics) =>
        (.ok {}, diagnostics ++ [⟨component.toString, .warning,
          "Could not load curated docs from " ++ path.toString ++ ": " ++ e.message⟩])

end ComponentDocs
