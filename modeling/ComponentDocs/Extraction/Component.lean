import ComponentDocs.Extraction.Inheritance

/-!
# Extraction

What static analysis finds out about a component file: its properties, from the declaration named
after the component, and a few facts about its exports and imports.
-/

namespace ComponentDocs.Extraction

open Source

/-- The ending of the name of a props declaration. -/
def propsEnding : String := "Props"

/-- The name of the component that a file defines. -/
def componentName (path : Path) : String := Naming.pascalCase path.stem

/-- The name of the props declaration in a file. -/
def propsName? (file : ParsedFile) : Option String :=
  Naming.select file.declaredNames (componentName file.path ++ propsEnding) propsEnding

/-- The properties of the component in a file of the project, sorted. -/
def fileProperties (fs : FileSystem) (namespaces : List String) (selection : PropertySelection)
    (given : String) (file : ParsedFile) : Walking (List Property) := do
  match (propsName? file).bind fun name => (file.declaration? name).map (name, ·) with
  | some (name, declaration) =>
    let defaults :=
      if selection.defaultValues then statedDefaults file (componentName file.path) name else []
    return sortProperties (← inherited fs ⟨selection, namespaces, defaults⟩ file declaration)
  | none =>
    modify fun w => { w with
      diagnostics := w.diagnostics ++ [⟨given, .warning, "No Props declaration found"⟩] }
    return []

/-- The properties of the component at a path, which the caller wrote as given.  A fault is
reported and leaves no properties. -/
def properties (fs : FileSystem) (namespaces : List String) (selection : PropertySelection)
    (project : Project) (path : Path) (given : String) :
    List Property × Project × List Diagnostic :=
  let walk : Walking (List Property) := do
    fileProperties fs namespaces selection given (← Walking.load fs path)
  match walk.run ⟨project, [], []⟩ with
  | (.ok properties, w) => (properties, w.project, w.diagnostics)
  | (.error e, w) =>
    ([], w.project,
      w.diagnostics ++ [⟨given, .error, "Error extracting props: " ++ e.message⟩])

/-- The facts about a file. -/
def factsOf (file : ParsedFile) : ComponentFacts :=
  { filePath := file.path.toString
    componentName := componentName file.path
    propsTypeName := (propsName? file).getD ""
    hasDefaultExport := file.hasDefaultExport
    hasNamedExport := file.hasNamedExport
    externalDependencies := file.specifiers.filter fun s => s.toList.head? != some '.' }

/-- The facts about the file at a path. -/
def facts (fs : FileSystem) (project : Project) (path : Path) :
    Except Fault (ComponentFacts × Project) := do
  let (file, project) ← project.add fs path
  return (factsOf file, project)

/-- The project without the files at the given paths and without those that have changed.  A path
that cannot be made canonical ends the removal; the fault comes with what is left then. -/
def refresh (fs : FileSystem) (project : Project) : List Path → Option Fault × Project
  | [] => (none, (project.dropChanged fs).2)
  | path :: rest =>
    match project.remove fs path with
    | .ok project => refresh fs project rest
    | .error e => (some e, project)

end ComponentDocs.Extraction
