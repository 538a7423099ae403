import ComponentDocs.Diagnostic
import ComponentDocs.Extraction.Members
import ComponentDocs.Project

/-!
# Inheritance

The properties of a declaration together with those of the types it builds on.  The walk goes
through bases in order, to their own bases first, and visits each declaration once; a base that is
already being expanded is reported as a cycle.
-/

namespace ComponentDocs.Extraction

open Source

/-- A declaration, known by its file and its name. -/
abbrev DeclarationKey := Path × String

/-- What a walk knows and has reported so far. -/
structure Walk where
  project : Project
  expanded : List DeclarationKey := []
  diagnostics : List Diagnostic := []

/-- A step of a walk; what is known stays known if it fails. -/
abbrev Walking := ExceptT Fault (StateM Walk)

namespace Walking

/-- Reports something about a file. -/
def report (file : Path) (severity : Severity) (message : String) : Walking Unit :=
  modify fun w => { w with diagnostics := w.diagnostics ++ [⟨file.toString, severity, message⟩] }

/-- The file at a path, read if need be. -/
def load (fs : FileSystem) (path : Path) : Walking ParsedFile := do
  match (← get).project.add fs path with
  | .ok (file, project) =>
    modify fun w => { w with project }
    return file
  | .error e => throw e

end Walking

/-- The declaration that an imported name stands for. -/
def resolveImport (fs : FileSystem) (file : ParsedFile) (name specifier exported : String) :
    Walking (Option (ParsedFile × Declaration)) := do
  match (← get).project.moduleFor? fs file specifier with
  | .error e => throw e
  | .ok none =>
    Walking.report file.path .info
      ("Base type " ++ name ++ " comes from unresolved module " ++ specifier)
    return none
  | .ok (some path) =>
    let target ← Walking.load fs path
    match target.declaration? exported with
    | some declaration => return some (target, declaration)
    | none =>
      Walking.report path .info ("Base type " ++ exported ++ " not declared in module")
      return none

/-- The declaration that a base stands for: one in the same file, or else an imported one. -/
def resolveBase (fs : FileSystem) (file : ParsedFile) :
    BaseType → Walking (Option (ParsedFile × Declaration))
  | .qualifiedGeneric => return none
  | .qualified text => do
    Walking.report file.path .info ("Skipping namespaced base type " ++ text)
    return none
  | .named name =>
    match file.declaration? name with
    | some declaration => return some (file, declaration)
    | none =>
      match file.import? name with
      | some (specifier, exported) => resolveImport fs file name specifier exported
      | none => do
        Walking.report file.path .info ("Base type " ++ name ++ " is not declared locally")
        return none

/-- The properties of a declaration and its bases, to a bounded depth; `path` are the declarations
that are being expanded. -/
def expand (fs : FileSystem) (setting : Setting) :
    Nat → List DeclarationKey → ParsedFile → Declaration → Walking (List Property)
  | 0, _, _, _ => return []
  | fuel + 1, path, file, declaration => do
    let key := (file.path, declaration.name)
    if path.contains key then
      Walking.report file.path .warning
        ("Inheritance cycle through " ++ declaration.name ++ "; not expanding it again")
      return []
    if (← get).expanded.contains key then return []
    modify fun w => { w with expanded := w.expanded ++ [key] }
    let own := members setting declaration
    if !setting.selection.inheritedProperties then return firstOfEachName own
    let inherited ← declaration.bases.mapM fun base => do
      match ← resolveBase fs file base with
      | some (file, declaration) => expand fs setting fuel (key :: path) file declaration
      | none => return []
    return firstOfEachName (own ++ inherited.flatten)

/-- A bound on the number of declarations in the files of a file system and of a project: a
declaration takes at least one character. -/
def declarationBound (fs : FileSystem) (project : Project) : Nat :=
  project.files.foldl (fun n file => n + (file.source.length + 2)) fs.top.weight

/-- The properties of a declaration and its bases. -/
def inherited (fs : FileSystem) (setting : Setting) (file : ParsedFile)
    (declaration : Declaration) : Walking (List Property) := do
  expand fs setting (declarationBound fs (← get).project + 1) [] file declaration

end ComponentDocs.Extraction
