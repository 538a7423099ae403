import ComponentDocs.Path
import ComponentDocs.Source.Module
import ComponentDocs.Text.Casing
import ComponentDocs.Text.Utf8

/-!
# Source files and their names

A source file together with what was read from it, and the views of it that extraction uses: the
declarations of types, the imports, and what is exported.
-/

namespace ComponentDocs.Source

/-- Whether files with this path may hold elements in angle brackets. -/
def holdsElements (path : Path) : Bool :=
  [".tsx", ".jsx"].contains (Text.lowered path.suffix)

/-- The module that the bytes of a file hold. -/
def readModule (path : Path) (source : List UInt8) : Module :=
  Module.ofText (holdsElements path) (String.ofList (Text.readLenient source))

/-- A file with the bytes it had when it was read. -/
structure ParsedFile where
  path : Path
  source : List UInt8
  module : Module
  module_eq : module = readModule path source := by rfl

namespace ParsedFile

/-- A source file, read. -/
def ofSource (path : Path) (source : List UInt8) : ParsedFile :=
  { path, source, module := readModule path source }

/-- What the statement at the top of a file defines. -/
def definitionOf : Statement → Option Definition
  | .importing _ => none
  | .exporting _ definition => definition
  | .defining definition => some definition

/-- What a file defines at its top, exported or not, in order. -/
def definitions (file : ParsedFile) : List Definition :=
  file.module.statements.filterMap definitionOf

/-- The declarations of types in a file, in order. -/
def declarations (file : ParsedFile) : List Declaration :=
  file.definitions.filterMap fun
    | .type declaration => some declaration
    | _ => none

/-- The declared names, each listed where it first stands. -/
def declaredNames (file : ParsedFile) : List String :=
  (file.declarations.map Declaration.name).eraseDups

/-- The declaration that a name stands for: the first one of it. -/
def declaration? (file : ParsedFile) (name : String) : Option Declaration :=
  file.declarations.find? (·.name = name)

/-- The import statements of a file. -/
def importClauses (file : ParsedFile) : List Import :=
  file.module.statements.filterMap fun
    | .importing clause => some clause
    | _ => none

/-- The modules that a file imports, as written. -/
def specifiers (file : ParsedFile) : List String :=
  file.importClauses.filterMap Import.specifier

/-- The imported names in order: each local name with its module and the name exported there. -/
def importedNames (file : ParsedFile) : List (String × String × String) :=
  file.importClauses.flatMap fun clause =>
    match clause.specifier with
    | some specifier => clause.names.map fun (here, exported) => (here, specifier, exported)
    | none => []

/-- The module and exported name that a local name is imported as: the last import of it. -/
def import? (file : ParsedFile) (name : String) : Option (String × String) :=
  file.importedNames.reverse.lookup name

/-- Whether a file has a default export. -/
def hasDefaultExport (file : ParsedFile) : Bool :=
  file.module.statements.any fun
    | .exporting isDefault _ => isDefault
    | _ => false

/-- Whether a file has an export other than the default one. -/
def hasNamedExport (file : ParsedFile) : Bool :=
  file.module.statements.any fun
    | .exporting isDefault _ => !isDefault
    | _ => false

end ParsedFile

end ComponentDocs.Source
