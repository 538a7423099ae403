import ComponentDocs.Fault
import ComponentDocs.NamePattern
import ComponentDocs.Text.Search

/-!
# Locating components

The files below a directory whose names match a pattern, hidden directories and those of
dependencies left out; and which of them are components, by their names.
-/

namespace ComponentDocs

/-- Why the files below a directory cannot be listed; directories are named as the caller wrote
them. -/
inductive ListingProblem where
  | path (fault : Fault)
  | missing (directory : String)
  | notDirectory (directory : String)
  | pattern (text : String) (problem : PatternProblem)
  deriving DecidableEq, Repr

/-- The message of a problem. -/
def ListingProblem.message : ListingProblem → String
  | .path fault => fault.message
  | .missing directory => "Components directory not found: " ++ directory
  | .notDirectory directory => "Components path is not a directory: " ++ directory
  | .pattern text .malformed => "malformed pattern " ++ Text.quoted text
  | .pattern _ problem => problem.message

namespace ComponentFiles

/-- The pattern for component files that is used unless another one is given. -/
def defaultPattern : String := "\\.tsx?$"

/-- The directory of installed dependencies. -/
def dependencyDirectory : String := "node_modules"

/-- Whether the files below a directory with this name are passed over. -/
def isSkipped (name : String) : Bool :=
  name.toList.head? == some '.' || name = dependencyDirectory

/-- What an entry of a directory contributes: its name, whether it is a file, and the paths. -/
structure Share where
  name : String
  isFile : Bool
  paths : List Path

/-- The paths of all shares: those of files first, and each kind in the order of names. -/
def inOrder (shares : List Share) : List Path :=
  let (files, directories) := shares.partition Share.isFile
  let sorted (shares : List Share) := shares.mergeSort fun a b => a.name ≤ b.name
  (sorted files ++ sorted directories).flatMap Share.paths

mutual

/-- The paths of the files below an entry that are wanted. -/
def walk (wanted : String → Bool) (path : Path) : Entry → List Path
  | .file .. => []
  | .directory _ children => inOrder (walkAll wanted path children)

/-- What the entries of a directory contribute. -/
def walkAll (wanted : String → Bool) (path : Path) : List (String × Entry) → List Share
  | [] => []
  | (name, entry) :: rest =>
    let here := path.child name
    let share : Share := match entry with
      | .file .. => ⟨name, true, if wanted name then [here] else []⟩
      | .directory _ children =>
        ⟨name, false, if isSkipped name then [] else inOrder (walkAll wanted here children)⟩
    share :: walkAll wanted path rest

end

/-- Reads a pattern. -/
def readPattern (names : CharacterNames) (text : String) : Except ListingProblem NamePattern :=
  match NamePattern.parse names text with
  | .ok p => .ok p
  | .error problem => .error (.pattern text problem)

/-- The directory that a path leads to, with its canonical path. -/
def directoryAt (fs : FileSystem) (path : Path) (given : String) :
    Except ListingProblem (Path × Entry) :=
  match fs.canonical path with
  | .error e => .error (.path e)
  | .ok path =>
    match fs.entry? path with
    | .error e => .error (.path (.file e))
    | .ok none => .error (.missing given)
    | .ok (some (.file ..)) => .error (.notDirectory given)
    | .ok (some directory) => .ok (path, directory)

/-- The paths of the files below a directory whose names a pattern matches.  The directory, which
the caller wrote as given, is looked at before the pattern. -/
def below (fs : FileSystem) (path : Path) (given : String)
    (pattern : Except ListingProblem NamePattern) : Except ListingProblem (List Path) := do
  let (path, directory) ← directoryAt fs path given
  let pattern ← pattern
  return walk pattern.found path directory

/-- The start of the names of index modules. -/
def indexStart : String := "index."

/-- Whether a file is a component by its name: no index module, and no marker stands in it. -/
def isComponent (markers : List String) (path : Path) : Bool :=
  let name := path.name
  !indexStart.toList.isPrefixOf name.toList && !markers.any (Text.contains name)

/-- The markers of tests, stories and overrides. -/
def defaultMarkers : List String := [".test.", ".spec.", ".stories.", ".docs."]

end ComponentFiles

end ComponentDocs
