import ComponentDocs.BaseRecord
import ComponentDocs.Extraction.Component
import ComponentDocs.Merging
import ComponentDocs.Override.Discovery
import ComponentDocs.RecordStore
import ComponentDocs.Settings

/-!
# Documenting components

A documenter makes the record of a component from its source file and its override file, keeps it,
and knows from which bytes it was made.  What it goes by is fixed when it is set up; what it has
read, made and reported is its state, and files are looked at only through the file system that
each operation is given.
-/

namespace ComponentDocs

/-- What a documenter goes by. -/
structure DocumenterSetup where
  componentsDirectory : Path
  formats : List OverrideFormat
  pattern : NamePattern
  excludeMarkers : List String
  typeNamespaces : List String
  selection : PropertySelection

/-- The bytes that a record was made from, with the paths they stand at. -/
abbrev Fingerprint := List UInt8

/-- What a documenter has read, made and reported. -/
structure DocumenterState where
  project : Project
  store : RecordStore Fingerprint := {}
  diagnostics : List Diagnostic := []

/-- A documenter. -/
structure Documenter where
  setup : DocumenterSetup
  state : DocumenterState

/-- Why a documenter could not be set up. -/
inductive SetupProblem where
  | path (fault : Fault)
  | discovery (problem : DiscoveryProblem)
  | pattern (text : String) (problem : PatternProblem)
  deriving DecidableEq, Repr

/-- The message of a problem. -/
def SetupProblem.message : SetupProblem → String
  | .path fault => fault.message
  | .discovery problem => problem.message
  | .pattern text problem => (SettingsProblem.pattern text problem).message

/-- What a caller asks for instead of the settings. -/
structure Request where
  componentsDirectory : Option Path := none
  compilerConfiguration : Option Path := none
  formats : Option (List String) := none
  selection : Option PropertySelection := none

namespace Documenter

/-! ## Setting up -/

/-- The directory of components below the current directory. -/
def usualDirectory (fs : FileSystem) : Path := fs.currentPath.child "components"

/-- The settings of a caller who has none. -/
def usualSettings (fs : FileSystem) : Settings := { root := fs.currentPath }

/-- A documenter with nothing made yet. -/
def start (names : CharacterNames) (fs : FileSystem) (settings : Settings) (request : Request) :
    Except SetupProblem Documenter := do
  let configuration := request.compilerConfiguration <|> settings.compilerConfiguration
  let project ← match Project.start fs configuration with
    | .ok project => pure project
    | .error e => throw (.path e)
  let formats ← match OverrideFormat.ofNames (request.formats.getD settings.overrideFormats) with
    | .ok formats => pure formats
    | .error e => throw (.discovery e)
  let pattern ← match NamePattern.parse names settings.filePattern with
    | .ok pattern => pure pattern
    | .error problem => throw (.pattern settings.filePattern problem)
  return {
    setup := {
      componentsDirectory := (request.componentsDirectory <|> settings.componentsDirectory).getD
        (usualDirectory fs)
      formats
      pattern
      excludeMarkers := settings.excludeMarkers
      typeNamespaces := settings.typeNamespaces
      selection := request.selection.getD settings.extraction }
    state := { project } }

/-! ## Fingerprints -/

/-- What stands for the bytes of a file that cannot be read. -/
def missingMark : List UInt8 := 0 :: Text.bytesOf "missing"

/-- The bytes of a file after the bytes of its path. -/
def fileBytes (fs : FileSystem) (path : Path) : List UInt8 :=
  Text.bytesOf path.toString ++
    match fs.read path with
    | .ok bytes => bytes
    | .error _ => missingMark

/-- The override files of a component, one of each format. -/
def overrideFiles (setup : DocumenterSetup) (fs : FileSystem) (path : Path) :
    Except Fault (List Path) := do
  return (← setup.formats.mapM fun format => format.path? fs path).reduceOption

/-- The fingerprint of a component: the bytes of its source file and of its override files. -/
def fingerprint (setup : DocumenterSetup) (fs : FileSystem) (path : Path) :
    Except Fault Fingerprint := do
  return (path :: (← overrideFiles setup fs path)).flatMap (fileBytes fs)

/-! ## Records -/

/-- The record of the component at a canonical path with its fingerprint, or why there is none. -/
def makeRecord (setup : DocumenterSetup) (fs : FileSystem) (path : Path) (state : DocumenterState) :
    Except Fault (ComponentRecord × Fingerprint) × DocumenterState :=
  let (properties, project, extractionNotes) :=
    Extraction.properties fs setup.typeNamespaces setup.selection state.project path path.toString
  let (curated, overrideNotes) := curatedFor fs path setup.formats
  let made : Except Fault (ComponentRecord × Fingerprint) := do
    let curated ← curated
    let base ← BaseRecord.build fs path properties
    return (curated.apply base, ← fingerprint setup fs path)
  (made, { state with
    project, diagnostics := state.diagnostics ++ extractionNotes ++ overrideNotes })

/-- The record of the component at a canonical path: the one that is kept, or else a new one, which
is kept from now on. -/
def recordAt (setup : DocumenterSetup) (fs : FileSystem) (path : Path) (state : DocumenterState) :
    Option ComponentRecord × DocumenterState :=
  let key := path.toString
  match state.store.get? key with
  | some record => (some record, state)
  | none =>
    match makeRecord setup fs path state with
    | (.ok (record, print), state) =>
      (some record, { state with store := state.store.insert key record print })
    | (.error e, state) =>
      (none, { state with diagnostics := state.diagnostics ++
        [⟨key, .warning, "Error generating documentation: " ++ e.message⟩] })

/-- The records of several components in order; those without a record are left out. -/
def recordsAt (setup : DocumenterSetup) (fs : FileSystem) :
    List Path → DocumenterState → List ComponentRecord × DocumenterState
  | [], state => ([], state)
  | path :: rest, state =>
    let (record, state) := recordAt setup fs path state
    let (records, state) := recordsAt setup fs rest state
    (record.toList ++ records, state)

/-- The record of the component at a path. -/
def document (d : Documenter) (fs : FileSystem) (path : Path) :
    Except Fault (Option ComponentRecord × Documenter) := do
  let path ← fs.canonical path
  let (record, state) := recordAt d.setup fs path d.state
  return (record, { d with state })

/-- The component files below a directory. -/
def componentFiles (d : Documenter) (fs : FileSystem) (directory : Option Path) :
    Except ListingProblem (List Path) := do
  let directory := directory.getD d.setup.componentsDirectory
  let paths ← ComponentFiles.below fs directory directory.toString (.ok d.setup.pattern)
  return paths.filter (ComponentFiles.isComponent d.setup.excludeMarkers)

/-- The records of all components below a directory, in the order of their names. -/
def documentBelow (d : Documenter) (fs : FileSystem) (directory : Option Path) :
    Except ListingProblem (List ComponentRecord × Documenter) := do
  let paths ← d.componentFiles fs directory
  let paths ← paths.mapM fun path =>
    match fs.canonical path with
    | .ok path => Except.ok path
    | .error e => .error (ListingProblem.path e)
  let (records, state) := recordsAt d.setup fs paths d.state
  return (records.mergeSort fun a b => a.name ≤ b.name, { d with state })

/-! ## Keeping and forgetting -/

/-- The records that are kept. -/
def cached (d : Documenter) : List ComponentRecord := d.state.store.records

/-- The documenter without records and without the files that have changed. -/
def clear (d : Documenter) (fs : FileSystem) : Documenter :=
  { d with state := { d.state with
    store := {}, project := (d.state.project.dropChanged fs).2 } }

/-- Whether a record is kept that was made from other bytes than there are now. -/
def isStale (d : Documenter) (fs : FileSystem) (path : Path) : Except Fault Bool := do
  let path ← fs.canonical path
  return d.state.store.isStale path.toString (← fingerprint d.setup fs path)

/-- Whether the record under a key is to be dropped: its file is gone or its bytes have changed. -/
def isOutdated (d : Documenter) (fs : FileSystem) (key : String) : Except Fault Bool := do
  let path := Path.ofString key
  match fs.exists? path with
  | .error e => throw (.file e)
  | .ok false => return true
  | .ok true => return d.state.store.isStale key (← fingerprint d.setup fs path)

/-- Drops the outdated records among those under the given keys; a fault ends the search and comes
with what has been dropped until then. -/
def dropOutdated (fs : FileSystem) :
    List String → Documenter → Option Fault × List Path × Documenter
  | [], d => (none, [], d)
  | key :: rest, d =>
    match d.isOutdated fs key with
    | .error e => (some e, [], d)
    | .ok false => dropOutdated fs rest d
    | .ok true =>
      let d := { d with state := { d.state with store := d.state.store.erase key } }
      let (fault, dropped, d) := dropOutdated fs rest d
      (fault, Path.ofString key :: dropped, d)

/-- Drops the outdated records and all files that have changed; the paths of the dropped records
are in their order. -/
def invalidate (d : Documenter) (fs : FileSystem) : Except Fault (List Path) × Documenter :=
  match dropOutdated fs d.state.store.keys d with
  | (some e, _, d) => (.error e, d)
  | (none, dropped, d) =>
    match Extraction.refresh fs d.state.project dropped with
    | (some e, project) => (.error e, { d with state := { d.state with project } })
    | (none, project) => (.ok dropped, { d with state := { d.state with project } })

/-- The documenter without files, records and diagnostics. -/
def dispose (d : Documenter) : Documenter :=
  { d with state := { project := d.state.project.clear } }

end Documenter

end ComponentDocs
