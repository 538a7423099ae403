import ComponentDocs.Completeness
import ComponentDocs.Documenter

/-!
# Requests

What callers ask for in one go: the records of a whole tree, the record of one component, or the
findings on a tree, each with the diagnostics that came up.  Settings are loaded first; nothing is
kept between requests.
-/

namespace ComponentDocs

/-- What a request goes by: the names of characters, and what the caller may leave out. -/
structure RequestSetup where
  names : CharacterNames
  compilerConfiguration : Option Path := none
  settings : Option Path := none

/-- Why a request could not be answered. -/
inductive RequestProblem where
  | settings (problem : SettingsProblem)
  | setup (problem : SetupProblem)
  | listing (problem : ListingProblem)
  | path (fault : Fault)
  deriving DecidableEq, Repr

/-- The message of a problem. -/
def RequestProblem.message : RequestProblem → String
  | .settings problem => problem.message
  | .setup problem => problem.message
  | .listing problem => problem.message
  | .path fault => fault.message

/-- The records of a tree. -/
structure TreeReport where
  records : List ComponentRecord
  diagnostics : List Diagnostic

/-- The record of one component, if there is one. -/
structure ComponentReport where
  record : Option ComponentRecord
  diagnostics : List Diagnostic

/-- The findings on a tree. -/
structure FindingsReport where
  findings : List Finding
  diagnostics : List Diagnostic

namespace RequestSetup

/-- A documenter for one request on the given directory. -/
def documenter (setup : RequestSetup) (fs : FileSystem) (directory : Option Path) :
    Except RequestProblem Documenter := do
  let path := setup.settings.getD fs.currentPath
  let settings ← (Settings.load setup.names fs path).mapError .settings
  (Documenter.start setup.names fs settings {
    componentsDirectory := directory
    compilerConfiguration := setup.compilerConfiguration }).mapError .setup

/-- The records of all components below a directory. -/
def documentTree (setup : RequestSetup) (fs : FileSystem) (directory : Option Path) :
    Except RequestProblem TreeReport := do
  let documenter ← setup.documenter fs directory
  let (records, documenter) ← (documenter.documentBelow fs none).mapError .listing
  return ⟨records, documenter.state.diagnostics⟩

/-- The record of the component at a path. -/
def documentFile (setup : RequestSetup) (fs : FileSystem) (path : Path) :
    Except RequestProblem ComponentReport := do
  let documenter ← setup.documenter fs (some path.parent)
  let (record, documenter) ← (documenter.document fs path).mapError .path
  return ⟨record, documenter.state.diagnostics⟩

/-- The findings on all components below a directory. -/
def checkTree (setup : RequestSetup) (fs : FileSystem) (directory : Option Path) :
    Except RequestProblem FindingsReport := do
  let report ← setup.documentTree fs directory
  return ⟨findings report.records, report.diagnostics⟩

end RequestSetup

end ComponentDocs
