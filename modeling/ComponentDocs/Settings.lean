import ComponentDocs.Extraction.Selection
import ComponentDocs.ComponentFiles
import ComponentDocs.Override.Format

/-!
# Settings

The settings of a project stand in a YAML file at its root.  What the file leaves out, or states in
a shape that does not fit, keeps its usual value; only a file that is no mapping and a malformed
pattern are refused.
-/

namespace ComponentDocs

/-- The settings of a project. -/
structure Settings where
  root : Path
  componentsDirectory : Option Path := none
  compilerConfiguration : Option Path := none
  filePattern : String := ComponentFiles.defaultPattern
  excludeMarkers : List String := ComponentFiles.defaultMarkers
  typeNamespaces : List String := ["React."]
  overrideFormats : List String := OverrideFormat.all.map OverrideFormat.name
  extraction : PropertySelection := {}
  deriving DecidableEq, Repr

/-- Why settings could not be loaded. -/
inductive SettingsProblem where
  | path (fault : Fault)
  | malformed (name : String)
  /-- A scalar of the file does not have the value its tag promises. -/
  | value (problem : Yaml.Problem)
  | notMapping
  | pattern (text : String) (problem : PatternProblem)
  deriving DecidableEq, Repr

namespace Settings

/-- The name of the settings file. -/
def fileName : String := ".compdoc.yml"

end Settings

/-- The message of a problem. -/
def SettingsProblem.message : SettingsProblem → String
  | .path fault => fault.message
  | .malformed name => "Failed to parse " ++ name ++ ": the text is malformed"
  | .value problem => problem.message
  | .notMapping => Settings.fileName ++ " must contain a mapping at the root"
  | .pattern text .malformed =>
    "Invalid file_pattern " ++ Text.quoted text ++ ": " ++ PatternProblem.malformed.message
  | .pattern _ problem => problem.message

namespace Settings

/-! ## Values -/

/-- A text, number or truth value as text. -/
def text? (d : Datum) : Option String :=
  match d with
  | .text _ | .int _ | .float _ | .bool _ => some d.display
  | _ => none

/-- A text, number or truth value as text, unless that is empty. -/
def nonEmpty? (d : Option Datum) : Option String := (d.bind text?).filter (· ≠ "")

/-- The texts of a list; a single text is a list of its own, and bytes are a list of numbers. -/
def texts (d : Datum) : List String :=
  match d with
  | .text s => [s]
  | .list items => items.filterMap text?
  | .tuple items => items.filterMap text?
  | .bytes bytes => bytes.map fun b => toString b.toNat
  | _ => []

/-- The entries of a mapping; anything else has none. -/
def entries (d : Option Datum) : List (Datum × Datum) :=
  match d with
  | some (.mapping entries) => entries
  | _ => []

/-- The words for truth values. -/
def words : List (String × Bool) :=
  [("true", true), ("yes", true), ("1", true), ("false", false), ("no", false), ("0", false)]

/-- A truth value, also as one of the words for them. -/
def boolean? : Datum → Option Bool
  | .bool b => some b
  | .text s => words.lookup (Text.lowered (Text.trimmed s))
  | _ => none

/-! ## Files -/

/-- The settings file that a path stands for: in the directory it leads to, else in the directory
it stands in. -/
def filePath (fs : FileSystem) (path : Path) : Except Fault Path := do
  match fs.expandHome? path with
  | none => throw .unknownHome
  | some path =>
    match fs.isDirectory path with
    | .error e => throw (.file e)
    | .ok true => return fs.resolve (path.child fileName)
    | .ok false =>
      if path.name = fileName then return fs.resolve path
      else return fs.resolve (path.parent.child fileName)

/-- The value in a settings file; a text of blanks alone states nothing. -/
def readFile (fs : FileSystem) (path : Path) : Except SettingsProblem Datum :=
  match fs.readText path with
  | .error e => .error (.path e)
  | .ok cs =>
    if (Text.trim cs).isEmpty then .ok (.mapping [])
    else
      match Yaml.parse cs with
      | .ok d => .ok (if d.truthy then d else .mapping [])
      | .error .malformed => .error (.malformed path.name)
      | .error e => .error (.value e)

/-- The selection that entries state. -/
def extractionOf (stated : List (Datum × Datum)) : PropertySelection :=
  let usual : PropertySelection := {}
  let flag (key : String) (fallback : Bool) : Bool :=
    ((Datum.find? (.text key) stated).bind boolean?).getD fallback
  { privateProperties := flag "include_private_props" usual.privateProperties
    inheritedProperties := flag "include_inherited_props" usual.inheritedProperties
    descriptions := flag "extract_jsdoc" usual.descriptions
    defaultValues := flag "extract_default_values" usual.defaultValues }

/-- The pattern that entries state, which must be well-formed. -/
def patternOf (names : CharacterNames) (stated : List (Datum × Datum)) :
    Except SettingsProblem String :=
  match nonEmpty? (Datum.find? (.text "file_pattern") stated) with
  | none => .ok ComponentFiles.defaultPattern
  | some text =>
    match NamePattern.parse names text with
    | .ok _ => .ok text
    | .error problem => .error (.pattern text problem)

/-- The settings that entries state for a project. -/
def ofEntries (names : CharacterNames) (root : Path) (stated : List (Datum × Datum)) :
    Except SettingsProblem Settings := do
  let find (key : String) := Datum.find? (.text key) stated
  let path? (key : String) := (nonEmpty? (find key)).map fun s => root.join (Path.ofString s)
  let usual : Settings := { root }
  let filePattern ← patternOf names stated
  let formats := Datum.find? (.text "providers") (entries (find "overrides"))
  return {
    root
    componentsDirectory := path? "components_dir"
    compilerConfiguration := path? "tsconfig"
    filePattern
    excludeMarkers := ((find "exclude_markers").map texts).getD usual.excludeMarkers
    typeNamespaces := ((find "type_namespaces").map texts).getD usual.typeNamespaces
    overrideFormats := (formats.map texts).getD usual.overrideFormats
    extraction := extractionOf (entries (find "extraction")) }

/-- Loads the settings that a path stands for; without a file all is as usual. -/
def load (names : CharacterNames) (fs : FileSystem) (path : Path) :
    Except SettingsProblem Settings := do
  match filePath fs path with
  | .error e => throw (.path e)
  | .ok file =>
    let root := file.parent
    match fs.exists? file with
    | .error e => throw (.path (.file e))
    | .ok false => return { root }
    | .ok true =>
      match ← readFile fs file with
      | .mapping stated => ofEntries names root stated
      | _ => throw .notMapping

end Settings

end ComponentDocs
