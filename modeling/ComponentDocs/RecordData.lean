import ComponentDocs.Datum
import ComponentDocs.Text.Search

/-!
# Records as data

The plain data of a record, under the keys that a documentation site uses.  What is unset has no
key.
-/

namespace ComponentDocs

/-- The entries of the keys that have a value. -/
def presentEntries (entries : List (String × Option Datum)) : List (Datum × Datum) :=
  entries.filterMap fun (key, value) => value.map fun value => (.text key, value)

/-- A list of texts. -/
def Datum.texts (items : List String) : Datum := .list (items.map .text)

/-- The data of a property. -/
def Property.toDatum (p : Property) : Datum :=
  .mapping (presentEntries [
    ("name", some (.text p.name)),
    ("type", some (.text p.type)),
    ("required", some (.bool p.required)),
    ("description", p.description.map .text),
    ("default", p.defaultValue.map .text)])

/-- The data of a usage example. -/
def UsageExample.toDatum (e : UsageExample) : Datum :=
  .mapping (presentEntries [
    ("name", some (.text e.name)),
    ("code", some (.text e.code)),
    ("description", e.description.map .text)])

/-- The data of accessibility guidance. -/
def Accessibility.toDatum (a : Accessibility) : Datum :=
  .mapping (presentEntries [
    ("notes", some (.texts a.notes)),
    ("keyboardNavigation", a.keyboardNavigation.map .text),
    ("screenReader", a.screenReader.map .text),
    ("colorContrast", a.colorContrast.map .text),
    ("focusManagement", a.focusManagement.map .text)])

/-- A moment as text, universal time being marked by a `Z`. -/
def DateTime.zonedText (t : DateTime) : String := Text.replaceWord "+00:00" "Z" t.isoText

/-- The entries of a record's data. -/
def ComponentRecord.entries (r : ComponentRecord) : List (Datum × Datum) :=
  presentEntries [
    ("id", some (.text r.id)),
    ("name", some (.text r.name)),
    ("description", some (.text r.description)),
    ("category", some (.text r.category)),
    ("props", some (.list (r.properties.map Property.toDatum))),
    ("tokens", some (.texts r.tokens)),
    ("examples", some (.list (r.examples.map UsageExample.toDatum))),
    ("filePath", some (.text r.filePath)),
    ("accessibility", r.accessibility.map Accessibility.toDatum),
    ("notes", r.notes.map .texts),
    ("deprecatedProps", r.deprecatedProperties.map .texts),
    ("migrationGuide", r.migrationGuide.map .text),
    ("version", r.version.map .text),
    ("lastModified", r.lastModified.map fun t => .text t.zonedText)]

/-- The data of a record. -/
def ComponentRecord.toDatum (r : ComponentRecord) : Datum := .mapping r.entries

end ComponentDocs
