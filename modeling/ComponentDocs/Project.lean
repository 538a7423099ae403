import ComponentDocs.Fault
import ComponentDocs.Json
import ComponentDocs.Source.File
import ComponentDocs.Text.Search

/-!
# Projects

A project keeps every source file it has read, in the order of reading and at most once per path,
and resolves the modules that files import from each other.  A file stays as it was read until it
is removed.
-/

namespace ComponentDocs

open Source

/-- A pattern for module names and the places it leads to. -/
structure Alias where
  pattern : String
  targets : List String
  deriving DecidableEq, Repr

/-- The paths that an alias gives a module name. -/
def Alias.bases (base : Path) (specifier : String) (entry : Alias) : List Path :=
  match entry.pattern.toList.reverse with
  | '*' :: fixed =>
    let fixed := fixed.reverse
    if fixed.isPrefixOf specifier.toList then
      let rest := String.ofList (specifier.toList.drop fixed.length)
      entry.targets.map fun target => base.join (Path.ofString (Text.replaceChar '*' rest target))
    else []
  | _ =>
    if entry.pattern = specifier then entry.targets.map fun target => base.join (Path.ofString target)
    else []

/-- The files read so far, and how module names that are no paths resolve. -/
structure Project where
  files : List ParsedFile := []
  base : Path
  aliases : List Alias := []

namespace Project

/-! ## Opening -/

/-- The aliases of a compiler configuration, which stand under `paths`. -/
def aliasesOf (paths : Option Datum) : List Alias :=
  match paths with
  | some (.mapping entries) => entries.filterMap fun
    | (.text pattern, .list targets) => some ⟨pattern, targets.map Datum.display⟩
    | _ => none
  | _ => []

/-- The base directory and the aliases that a compiler configuration in a directory states. -/
def optionsOf (fs : FileSystem) (directory : Path) (data : Option Datum) : Path × List Alias :=
  match data with
  | some (.mapping entries) =>
    match Datum.find? (.text "compilerOptions") entries with
    | some (.mapping options) =>
      let base := match Datum.find? (.text "baseUrl") options with
        | some (.text url) => fs.resolve (directory.join (Path.ofString url))
        | _ => directory
      (base, aliasesOf (Datum.find? (.text "paths") options))
    | _ => (directory, [])
  | _ => (directory, [])

/-- The name of the compiler configuration that is used unless another one is given. -/
def configurationName : String := "tsconfig.json"

/-- A project without files, with the compiler configuration at the given path or else in the
current directory.  A missing or malformed configuration states nothing; only one that is no text
is an error. -/
def start (fs : FileSystem) (configuration : Option Path) : Except Fault Project := do
  let path ← fs.canonical (configuration.getD (fs.currentPath.child configurationName))
  let directory := path.parent
  match fs.isFile path with
  | .error e => throw (.file e)
  | .ok false => return { base := directory }
  | .ok true =>
    match fs.readText path with
    | .error (.notText p) => throw (.notText p)
    | .error _ => return { base := directory }
    | .ok cs =>
      let (base, aliases) := optionsOf fs directory (Json.parse? cs)
      return { base, aliases }

/-! ## Files -/

/-- The file read from a canonical path. -/
def file? (project : Project) (path : Path) : Option ParsedFile :=
  project.files.find? (·.path = path)

/-- The project without the file of a canonical path. -/
def erase (project : Project) (path : Path) : Project :=
  { project with files := project.files.filter (·.path ≠ path) }

/-- The file at a path, read now unless it was read before. -/
def add (project : Project) (fs : FileSystem) (path : Path) :
    Except Fault (ParsedFile × Project) := do
  let path ← fs.canonical path
  match project.file? path with
  | some file => return (file, project)
  | none =>
    match fs.read path with
    | .error e => throw (.file e)
    | .ok source =>
      let file := ParsedFile.ofSource path source
      return (file, { project with files := project.files ++ [file] })

/-- The project without the file at a path. -/
def remove (project : Project) (fs : FileSystem) (path : Path) : Except Fault Project := do
  return project.erase (← fs.canonical path)

/-- Whether a file still has the bytes that were read. -/
def isCurrent (fs : FileSystem) (file : ParsedFile) : Bool :=
  match fs.read file.path with
  | .ok source => source = file.source
  | .error _ => false

/-- The paths of the files that have changed or gone, and the project without them. -/
def dropChanged (project : Project) (fs : FileSystem) : List Path × Project :=
  let changed := project.files.filter fun file => !isCurrent fs file
  (changed.map ParsedFile.path,
    { project with files := project.files.filter (isCurrent fs) })

/-- The project without its files. -/
def clear (project : Project) : Project := { project with files := [] }

/-! ## Modules -/

/-- The endings that a module name may leave out. -/
def moduleSuffixes : List String := [".ts", ".tsx", ".d.ts"]

/-- The files that stand for a directory. -/
def indexNames : List String := ["index.ts", "index.tsx"]

/-- The paths where a module may be found, best first. -/
def candidates (base : Path) : Except Fault (List Path) := do
  let named ← moduleSuffixes.mapM fun suffix =>
    match base.withName? (base.name ++ suffix) with
    | some path => Except.ok path
    | none => .error (.unnamed base)
  return base :: named ++ indexNames.map base.child

/-- The paths that a module name may stand for, without endings: one that starts with a dot is
seen from the importing file, any other goes through the aliases. -/
def moduleStems (project : Project) (importer : ParsedFile) (specifier : String) : List Path :=
  if specifier.toList.head? == some '.' then
    [importer.path.parent.join (Path.ofString specifier)]
  else project.aliases.flatMap (Alias.bases project.base specifier)

/-- The first of several bases at which a file is found. -/
def firstModule (fs : FileSystem) : List Path → Except Fault (Option Path)
  | [] => .ok none
  | base :: rest => do
    match ← fs.firstFile (← candidates base) with
    | some path => return some (fs.resolve path)
    | none => firstModule fs rest

/-- The file that a module name stands for; that of a package has none. -/
def moduleFor? (project : Project) (fs : FileSystem) (importer : ParsedFile)
    (specifier : String) : Except Fault (Option Path) :=
  firstModule fs (project.moduleStems importer specifier)

end Project

end ComponentDocs
