import ComponentDocs.Datum
import ComponentDocs.Diagnostic
import ComponentDocs.Text.Casing
import ComponentDocs.Text.Search

/-!
# Curated records

A curated record states some fields of a component's record.  It is read from a mapping whose keys
may be in camel case or in snake case; a null value states nothing.
-/

namespace ComponentDocs

/-- The stated fields of a record. -/
structure Curated where
  id : Option String := none
  name : Option String := none
  description : Option String := none
  category : Option String := none
  properties : Option (List CuratedProperty) := none
  tokens : Option (List String) := none
  examples : Option (List UsageExample) := none
  accessibility : Option Accessibility := none
  notes : Option (List String) := none
  deprecatedProperties : Option (List String) := none
  migrationGuide : Option String := none
  version : Option String := none
  lastModified : Option DateTime := none
  deriving DecidableEq, Repr

/-- Why a value is refused. -/
inductive CuratedProblem where
  | expectedText (kind : String)
  | expectedTexts (kind : String)
  | expectedBoolean (kind : String)
  | propertiesNotList
  | propertyWithoutName
  | examplesNotList
  | exampleIncomplete
  | accessibilityShape
  | invalidMoment (text : String)
  | expectedMoment (kind : String)
  deriving DecidableEq, Repr

/-- The message of a problem. -/
def CuratedProblem.message : CuratedProblem → String
  | .expectedText kind => "Expected text, got " ++ kind
  | .expectedTexts kind => "Expected a list of strings, got " ++ kind
  | .expectedBoolean kind => "Expected a boolean, got " ++ kind
  | .propertiesNotList => "Curated props must be a list"
  | .propertyWithoutName => "Each curated prop must be a mapping with a name"
  | .examplesNotList => "Curated examples must be a list"
  | .exampleIncomplete => "Each example must be a mapping with name and code"
  | .accessibilityShape => "Accessibility notes must be a mapping or a list"
  | .invalidMoment text => "Invalid lastModified value " ++ Text.quoted text
  | .expectedMoment kind => "Expected a datetime, got " ++ kind

namespace Curated

/-! ## Keys -/

/-- The characters with an underscore before each upper case letter. -/
def splitCamel : List Char → List Char
  | [] => []
  | c :: cs => if 'A' ≤ c && c ≤ 'Z' then '_' :: c :: splitCamel cs else c :: splitCamel cs

/-- The key in snake case. -/
def snakeCase (key : String) : String :=
  match key.toList with
  | [] => ""
  | c :: cs => Text.lowered (String.ofList (c :: splitCamel cs))

/-- The keys that have another name. -/
def aliases : List (String × String) :=
  [("accessibility_notes", "accessibility"), ("default_value", "default")]

/-- The key in snake case, by its own name. -/
def normalKey (key : String) : String :=
  let snake := snakeCase key
  (aliases.lookup snake).getD snake

/-- The entries of a mapping under their normal keys. -/
def normalEntries (entries : List (Datum × Datum)) : List (String × Datum) :=
  entries.map fun (key, value) => (normalKey key.display, value)

/-- The value of a key among entries under normal keys: the last one; none if that is null. -/
def value? (entries : List (String × Datum)) (key : String) : Option Datum :=
  (entries.reverse.lookup key).filter fun
    | .null => false
    | _ => true

/-! ## Values -/

/-- A text; numbers are written out. -/
def text (d : Datum) : Except CuratedProblem String :=
  match d with
  | .text s => .ok s
  | .int _ | .float _ => .ok d.display
  | _ => .error (.expectedText d.typeName)

/-- The items of a list or tuple. -/
def items? : Datum → Option (List Datum)
  | .list items => some items
  | .tuple items => some items
  | _ => none

/-- A list of texts. -/
def texts (d : Datum) : Except CuratedProblem (List String) :=
  match items? d with
  | some items => items.mapM text
  | none => .error (.expectedTexts d.typeName)

/-- A text that may be missing. -/
def text? (d : Option Datum) : Except CuratedProblem (Option String) := d.mapM text

/-- A truth value that may be missing. -/
def boolean? : Option Datum → Except CuratedProblem (Option Bool)
  | none => .ok none
  | some (.bool b) => .ok (some b)
  | some d => .error (.expectedBoolean d.typeName)

/-- A default value that may be missing; truth values are written in lower case. -/
def default? : Option Datum → Except CuratedProblem (Option String)
  | some (.bool b) => .ok (some (if b then "true" else "false"))
  | d => text? d

/-- A property. -/
def curatedProperty (d : Datum) : Except CuratedProblem CuratedProperty :=
  match d with
  | .curatedProperty p => .ok p
  | .property p => .ok ⟨p.name, some p.type, some p.required, p.description, p.defaultValue⟩
  | .mapping entries => do
    if (Datum.find? (.text "name") entries).isNone then throw .propertyWithoutName
    let entries := normalEntries entries
    let name ← text ((entries.reverse.lookup "name").getD .null)
    let type ← text? (value? entries "type")
    let required ← boolean? (value? entries "required")
    let description ← text? (value? entries "description")
    let defaultValue ← default? (value? entries "default")
    return { name, type, required, description, defaultValue }
  | _ => .error .propertyWithoutName

/-- A list of properties. -/
def propertyList (d : Datum) : Except CuratedProblem (List CuratedProperty) :=
  match items? d with
  | some items => items.mapM curatedProperty
  | none => .error .propertiesNotList

/-- A usage example; its keys are taken as they are. -/
def usageExample (d : Datum) : Except CuratedProblem UsageExample :=
  match d with
  | .usageExample e => .ok e
  | .mapping entries =>
    match Datum.find? (.text "name") entries, Datum.find? (.text "code") entries with
    | some name, some code => do
      let name ← text name
      let code ← text code
      let description ← text? ((Datum.find? (.text "description") entries).filter fun
        | .null => false
        | _ => true)
      return { name, code, description }
    | _, _ => .error .exampleIncomplete
  | _ => .error .exampleIncomplete

/-- A list of usage examples. -/
def exampleList (d : Datum) : Except CuratedProblem (List UsageExample) :=
  match items? d with
  | some items => items.mapM usageExample
  | none => .error .examplesNotList

/-- Accessibility guidance: a mapping, or its notes alone. -/
def guidance (d : Datum) : Except CuratedProblem Accessibility :=
  match d with
  | .accessibility a => .ok a
  | .mapping entries => do
    let entries := normalEntries entries
    let notes ← texts (((value? entries "notes").filter Datum.truthy).getD (.list []))
    let keyboardNavigation ← text? (value? entries "keyboard_navigation")
    let screenReader ← text? (value? entries "screen_reader")
    let colorContrast ← text? (value? entries "color_contrast")
    let focusManagement ← text? (value? entries "focus_management")
    return { notes, keyboardNavigation, screenReader, colorContrast, focusManagement }
  | d =>
    match items? d with
    | some items => do return { notes := ← items.mapM text }
    | none => .error .accessibilityShape

/-- A moment, finished or as text. -/
def moment (d : Datum) : Except CuratedProblem DateTime :=
  match d with
  | .dateTime t => .ok t
  | .text s =>
    match IsoText.dateTime? (Text.replaceChar 'Z' "+00:00" s) with
    | some t => .ok t
    | none => .error (.invalidMoment s)
  | d => .error (.expectedMoment d.typeName)

/-! ## Records -/

/-- The record with one more field stated, given by its normal key; none if no field has the
key. -/
def set? (c : Curated) (d : Datum) : String → Option (Except CuratedProblem Curated)
  | "id" => some do return { c with id := some (← text d) }
  | "name" => some do return { c with name := some (← text d) }
  | "description" => some do return { c with description := some (← text d) }
  | "category" => some do return { c with category := some (← text d) }
  | "props" => some do return { c with properties := some (← propertyList d) }
  | "tokens" => some do return { c with tokens := some (← texts d) }
  | "examples" => some do return { c with examples := some (← exampleList d) }
  | "accessibility" => some do return { c with accessibility := some (← guidance d) }
  | "notes" => some do return { c with notes := some (← texts d) }
  | "deprecated_props" => some do return { c with deprecatedProperties := some (← texts d) }
  | "migration_guide" => some do return { c with migrationGuide := some (← text d) }
  | "version" => some do return { c with version := some (← text d) }
  | "last_modified" => some do return { c with lastModified := some (← moment d) }
  | _ => none

/-- Reading that reports what it passes over. -/
abbrev Reading := ExceptT CuratedProblem (StateM (List Diagnostic))

/-- Reports something about the file that is being read. -/
def report (source : String) (severity : Severity) (message : String) : Reading Unit :=
  modify (· ++ [⟨source, severity, message⟩])

/-- The key of the path, which cannot be curated. -/
def pathKey : String := "file_path"

/-- The record with what one entry states. -/
def addEntry (source : String) (c : Curated) (entry : Datum × Datum) : Reading Curated := do
  let (key, value) := entry
  if normalKey key.display = pathKey then
    report source .info "Ignoring curated filePath; the analyzed path is kept"
    return c
  match c.set? value (normalKey key.display), value with
  | none, _ =>
    report source .warning ("Ignoring unknown curated field " ++ key.shown)
    return c
  | some _, .null => return c
  | some (.ok c), _ => return c
  | some (.error e), _ => throw e

/-- The record without a category that does not exist. -/
def checkCategory (source : String) (c : Curated) : Reading Curated := do
  match c.category with
  | some category =>
    if categories.contains category then return c
    report source .warning
      ("Unknown category " ++ Text.quoted category ++ "; inferring from path")
    return { c with category := none }
  | none => return c

/-- Reads the entries of a mapping. -/
def read (source : String) (entries : List (Datum × Datum)) : Reading Curated := do
  checkCategory source (← entries.foldlM (addEntry source) {})

/-- The record that a mapping states or why it is refused, and what is reported of it. -/
def parse (source : String) (entries : List (Datum × Datum)) :
    Except CuratedProblem Curated × List Diagnostic :=
  (read source entries).run []

end Curated

end ComponentDocs
