import ComponentDocs.Proofs.Curated.MergedProperties
import ComponentDocs.Proofs.Curated.StatedCategory
import ComponentDocs.Proofs.Time.IsoRoundTrip

/-!
# The data of a record state the record

A record written as data can serve as curated data: reading it states every field but the path, and
merging that into a bare record gives the record back (`parse_entries_apply`).

Writing and reading are two separate tables of keys, one in camel case and the other in snake case,
so the proof goes entry by entry.  A `Statement` is an entry with what it should state; that it is
understood is one fact about each field, and a list of statements is read by one induction.
-/

namespace ComponentDocs

/-! ## What stands under a key -/

section Lookup

variable {fields : List (String × Option Datum)} {key : String} {value : Option Datum}

namespace Curated

theorem lookup_normalEntries_cons (field : String × Option Datum)
    (fields : List (String × Option Datum)) (key : String) :
    (normalEntries (presentEntries (field :: fields))).reverse.lookup key =
      ((normalEntries (presentEntries fields)).reverse.lookup key).or
        (if key = normalKey field.1 then field.2 else none) := by
  obtain ⟨name, value⟩ := field
  cases value with
  | none =>
      have hskip : presentEntries ((name, none) :: fields) = presentEntries fields := rfl
      rw [hskip, ite_self, Option.or_none]
  | some d =>
      have hcons : normalEntries (presentEntries ((name, some d) :: fields)) =
          (normalKey name, d) :: normalEntries (presentEntries fields) := rfl
      rw [hcons, List.reverse_cons, List.lookup_append]
      by_cases hkey : key = normalKey name
      · simp [hkey]
      · rw [List.lookup_cons, beq_false_of_ne hkey, if_neg hkey]
        rfl

theorem lookup_normalEntries_of_not_mem (hkey : key ∉ fields.map (normalKey ·.1)) :
    (normalEntries (presentEntries fields)).reverse.lookup key = none := by
  induction fields with
  | nil => rfl
  | cons field rest ih =>
      rw [List.map_cons, List.mem_cons, not_or] at hkey
      rw [lookup_normalEntries_cons, ih hkey.2, if_neg hkey.1]
      rfl

/-- If no two fields have the same normal key, a field's value stands under its normal key. -/
theorem lookup_normalEntries (hkeys : (fields.map (normalKey ·.1)).Nodup)
    (hfield : (key, value) ∈ fields) :
    (normalEntries (presentEntries fields)).reverse.lookup (normalKey key) = value := by
  induction fields with
  | nil => exact absurd hfield List.not_mem_nil
  | cons field rest ih =>
      obtain ⟨hnew, hrest⟩ := List.nodup_cons.mp hkeys
      rw [lookup_normalEntries_cons]
      rcases List.mem_cons.mp hfield with rfl | hfield
      · rw [lookup_normalEntries_of_not_mem hnew, if_pos rfl, Option.none_or]
      · have hother : normalKey key ≠ normalKey field.1 := by
          intro hsame
          exact hnew (List.mem_map.mpr ⟨_, hfield, hsame⟩)
        rw [ih hrest hfield, if_neg hother, Option.or_none]

end Curated

theorem find?_presentEntries_cons (field : String × Option Datum)
    (fields : List (String × Option Datum)) (key : String) :
    Datum.find? (.text key) (presentEntries (field :: fields)) =
      (if field.1 = key then field.2 else none).or
        (Datum.find? (.text key) (presentEntries fields)) := by
  obtain ⟨name, value⟩ := field
  cases value with
  | none =>
      rw [ite_self, Option.none_or]
      rfl
  | some d =>
      have hcons : presentEntries ((name, some d) :: fields) =
          (.text name, d) :: presentEntries fields := rfl
      have hsame : Datum.sameKey (.text name) (.text key) = (name == key) := by
        rw [Datum.sameKey]
      rw [hcons, Datum.find?, List.find?_cons]
      dsimp only
      rw [hsame]
      by_cases hkey : name = key
      · rw [beq_iff_eq.mpr hkey, if_pos hkey]
        rfl
      · rw [beq_false_of_ne hkey, if_neg hkey]
        rfl

theorem find?_presentEntries_of_not_mem (hkey : key ∉ fields.map Prod.fst) :
    Datum.find? (.text key) (presentEntries fields) = none := by
  induction fields with
  | nil => rfl
  | cons field rest ih =>
      rw [List.map_cons, List.mem_cons, not_or] at hkey
      rw [find?_presentEntries_cons, ih hkey.2, if_neg (Ne.symm hkey.1), Option.none_or]

/-- If no two fields have the same key, a field's value stands under its key. -/
theorem find?_presentEntries (hkeys : (fields.map Prod.fst).Nodup)
    (hfield : (key, value) ∈ fields) :
    Datum.find? (.text key) (presentEntries fields) = value := by
  induction fields with
  | nil => exact absurd hfield List.not_mem_nil
  | cons field rest ih =>
      obtain ⟨hnew, hrest⟩ := List.nodup_cons.mp hkeys
      rw [find?_presentEntries_cons]
      rcases List.mem_cons.mp hfield with rfl | hfield
      · rw [find?_presentEntries_of_not_mem hnew, if_pos rfl, Option.or_none]
      · have hother : field.1 ≠ key := by
          rintro rfl
          exact hnew (List.mem_map.mpr ⟨_, hfield, rfl⟩)
        rw [if_neg hother, Option.none_or, ih hrest hfield]

end Lookup

/-! ## The parts of a record -/

/-- The fields of a property's data. -/
def Property.fields (p : Property) : List (String × Option Datum) := [
  ("name", some (.text p.name)),
  ("type", some (.text p.type)),
  ("required", some (.bool p.required)),
  ("description", p.description.map .text),
  ("default", p.defaultValue.map .text)]

theorem Property.toDatum_eq (p : Property) : p.toDatum = .mapping (presentEntries p.fields) := rfl

/-- The fields of a usage example's data. -/
def UsageExample.fields (e : UsageExample) : List (String × Option Datum) := [
  ("name", some (.text e.name)),
  ("code", some (.text e.code)),
  ("description", e.description.map .text)]

theorem UsageExample.toDatum_eq (e : UsageExample) :
    e.toDatum = .mapping (presentEntries e.fields) := rfl

/-- The fields of the data of accessibility guidance. -/
def Accessibility.fields (a : Accessibility) : List (String × Option Datum) := [
  ("notes", some (.texts a.notes)),
  ("keyboardNavigation", a.keyboardNavigation.map .text),
  ("screenReader", a.screenReader.map .text),
  ("colorContrast", a.colorContrast.map .text),
  ("focusManagement", a.focusManagement.map .text)]

theorem Accessibility.toDatum_eq (a : Accessibility) :
    a.toDatum = .mapping (presentEntries a.fields) := rfl

/-- The curated property that states all of a property. -/
def Property.stated (p : Property) : CuratedProperty where
  name := p.name
  type := some p.type
  required := some p.required
  description := p.description
  defaultValue := p.defaultValue

/-- What is stated in full stands for itself; an empty type is no loss, as nothing stands in for
it. -/
theorem Property.toProperty_stated (p : Property) : p.stated.toProperty = p := by
  have htype : ((some p.type).filter (· ≠ "")).getD "" = p.type := by
    rw [Option.filter_some]
    split_ifs with hempty
    · rfl
    · have htype : p.type = "" := by simpa using hempty
      exact htype.symm
  have hdescription : (p.description <|> none) = p.description := by
    cases p.description <;> rfl
  have hdefault : (p.defaultValue <|> none) = p.defaultValue := by
    cases p.defaultValue <;> rfl
  rw [CuratedProperty.toProperty, CuratedProperty.apply, stated]
  dsimp only
  rw [htype, hdescription, hdefault, Option.getD_some]

namespace Curated

private theorem mapM_map_ok {α β : Type} {f : Datum → Except CuratedProblem β} {g : α → Datum}
    {h : α → β} {items : List α} (hitems : ∀ a ∈ items, f (g a) = .ok (h a)) :
    (items.map g).mapM f = .ok (items.map h) := by
  induction items with
  | nil => rfl
  | cons a rest ih =>
      obtain ⟨hfirst, hrest⟩ := List.forall_mem_cons.mp hitems
      rw [List.map_cons, List.mapM_cons, hfirst, ih hrest]
      rfl

theorem texts_texts (items : List String) : texts (.texts items) = .ok items := by
  have hitems : (items.map Datum.text).mapM text = .ok (items.map fun s => s) :=
    mapM_map_ok fun _ _ => rfl
  rwa [List.map_id'] at hitems

theorem text?_text (value : Option String) : text? (value.map .text) = .ok value := by
  cases value <;> rfl

theorem value?_of_lookup {entries : List (String × Datum)} {key : String} {value : Option Datum}
    (hlookup : entries.reverse.lookup key = value) (hvalue : value ≠ some .null) :
    value? entries key = value := by
  rw [value?, hlookup]
  cases value with
  | none => rfl
  | some d => cases d <;> first | rfl | exact absurd rfl hvalue

theorem curatedProperty_toDatum (p : Property) : curatedProperty p.toDatum = .ok p.stated := by
  have hkeys : (p.fields.map (normalKey ·.1)).Nodup := by
    change (["name", "type", "required", "description", "default"].map normalKey).Nodup
    decide
  have hlookup (key : String) (value : Option Datum) (hfield : (key, value) ∈ p.fields) :
      (normalEntries (presentEntries p.fields)).reverse.lookup (normalKey key) = value :=
    lookup_normalEntries hkeys hfield
  have hpresent : (Datum.find? (.text "name") (presentEntries p.fields)).isNone = false := by
    rw [Property.fields, find?_presentEntries_cons]
    rfl
  have hname : (normalEntries (presentEntries p.fields)).reverse.lookup "name" =
      some (.text p.name) := hlookup "name" _ (by simp [Property.fields])
  have htype : value? (normalEntries (presentEntries p.fields)) "type" = some (.text p.type) :=
    value?_of_lookup (hlookup "type" _ (by simp [Property.fields])) (by simp)
  have hrequired : value? (normalEntries (presentEntries p.fields)) "required" =
      some (.bool p.required) :=
    value?_of_lookup (hlookup "required" _ (by simp [Property.fields])) (by simp)
  have hdescription : value? (normalEntries (presentEntries p.fields)) "description" =
      p.description.map .text :=
    value?_of_lookup (hlookup "description" _ (by simp [Property.fields])) (by simp)
  have hdefault : value? (normalEntries (presentEntries p.fields)) "default" =
      p.defaultValue.map .text :=
    value?_of_lookup (hlookup "default" _ (by simp [Property.fields])) (by simp)
  have hread : default? (p.defaultValue.map .text) = .ok p.defaultValue := by
    cases p.defaultValue <;> rfl
  rw [p.toDatum_eq, curatedProperty, hpresent]
  dsimp only
  rw [hname, htype, hrequired, hdescription, hdefault, text?_text, hread]
  rfl

theorem usageExample_toDatum (e : UsageExample) : usageExample e.toDatum = .ok e := by
  have hkeys : (e.fields.map Prod.fst).Nodup := by
    change ["name", "code", "description"].Nodup
    decide
  have hname : Datum.find? (.text "name") (presentEntries e.fields) = some (.text e.name) :=
    find?_presentEntries hkeys (by simp [UsageExample.fields])
  have hcode : Datum.find? (.text "code") (presentEntries e.fields) = some (.text e.code) :=
    find?_presentEntries hkeys (by simp [UsageExample.fields])
  have hdescription : Datum.find? (.text "description") (presentEntries e.fields) =
      e.description.map .text :=
    find?_presentEntries hkeys (by simp [UsageExample.fields])
  rw [e.toDatum_eq, usageExample, hname, hcode]
  dsimp only
  rw [hdescription]
  obtain ⟨name, code, description⟩ := e
  cases description <;> rfl

theorem guidance_toDatum (a : Accessibility) : guidance a.toDatum = .ok a := by
  have hkeys : (a.fields.map (normalKey ·.1)).Nodup := by
    change (["notes", "keyboardNavigation", "screenReader", "colorContrast",
      "focusManagement"].map normalKey).Nodup
    decide
  have hvalue (key : String) (value : Option Datum) (hfield : (key, value) ∈ a.fields)
      (hpresent : value ≠ some .null) :
      value? (normalEntries (presentEntries a.fields)) (normalKey key) = value :=
    value?_of_lookup (lookup_normalEntries hkeys hfield) hpresent
  have hnotes : value? (normalEntries (presentEntries a.fields)) "notes" =
      some (.texts a.notes) :=
    hvalue "notes" _ (by simp [Accessibility.fields]) (by simp [Datum.texts])
  have hkeyboard : value? (normalEntries (presentEntries a.fields)) "keyboard_navigation" =
      a.keyboardNavigation.map .text :=
    hvalue "keyboardNavigation" _ (by simp [Accessibility.fields]) (by simp)
  have hreader : value? (normalEntries (presentEntries a.fields)) "screen_reader" =
      a.screenReader.map .text :=
    hvalue "screenReader" _ (by simp [Accessibility.fields]) (by simp)
  have hcontrast : value? (normalEntries (presentEntries a.fields)) "color_contrast" =
      a.colorContrast.map .text :=
    hvalue "colorContrast" _ (by simp [Accessibility.fields]) (by simp)
  have hfocus : value? (normalEntries (presentEntries a.fields)) "focus_management" =
      a.focusManagement.map .text :=
    hvalue "focusManagement" _ (by simp [Accessibility.fields]) (by simp)
  -- an empty list of notes counts as missing, and a missing one as empty
  have hread : texts (((some (Datum.texts a.notes)).filter Datum.truthy).getD (.list [])) =
      .ok a.notes := by
    cases hempty : a.notes with
    | nil => rfl
    | cons note rest => exact texts_texts (note :: rest)
  rw [a.toDatum_eq, guidance, hnotes, hkeyboard, hreader, hcontrast, hfocus, hread, text?_text,
    text?_text, text?_text, text?_text]
  rfl

theorem moment_zonedText {t : DateTime} (ht : t.Valid) : moment (.text t.zonedText) = .ok t := by
  rw [moment, t.replaceChar_zonedText, IsoText.dateTime?_isoText ht]

/-! ## Reading entries -/

/-- An entry of a record's data and what it states. -/
structure Statement where
  key : String
  value : Option Datum
  state : Curated → Curated

/-- The statement of a field that may be unset. -/
def Statement.of {α : Type} (key : String) (toDatum : α → Datum) (set : α → Curated → Curated)
    (value : Option α) : Statement :=
  ⟨key, value.map toDatum, fun c => value.elim c fun a => set a c⟩

/-- Whether reading the entry states what it should. -/
def Statement.Understood (s : Statement) : Prop :=
  ∀ c : Curated, match s.value with
    | none => s.state c = c
    | some d => d ≠ .null ∧ c.set? d (normalKey s.key) = some (.ok (s.state c))

namespace Statement.Understood

variable {α : Type} {key : String} {toDatum : α → Datum} {set : α → Curated → Curated}
  {value : Option α}

theorem of (normal : String) (hkey : normalKey key = normal) (hnull : ∀ a, toDatum a ≠ .null)
    (hset : ∀ a ∈ value, ∀ c : Curated, c.set? (toDatum a) normal = some (.ok (set a c))) :
    (Statement.of key toDatum set value).Understood := by
  intro c
  cases value with
  | none => rfl
  | some a => exact ⟨hnull a, hkey ▸ hset a rfl c⟩

/-- A field is understood if it is set to what is read, and reading undoes writing. -/
theorem of_read (normal : String) (read : Datum → Except CuratedProblem α)
    (hkey : normalKey key = normal) (hnull : ∀ a, toDatum a ≠ .null)
    (hset : ∀ (c : Curated) (d : Datum), c.set? d normal = some do return set (← read d) c)
    (hread : ∀ a ∈ value, read (toDatum a) = .ok a) :
    (Statement.of key toDatum set value).Understood := by
  refine .of normal hkey hnull fun a ha c => ?_
  rw [hset, hread a ha]
  rfl

end Statement.Understood

/-- What is reported of a stated path. -/
def pathNote (source : String) : Diagnostic :=
  ⟨source, .info, "Ignoring curated filePath; the analyzed path is kept"⟩

variable {source : String} {c next : Curated} {notes : List Diagnostic}

theorem addEntry_run {key d : Datum} {normal : String} (hkey : normalKey key.display = normal)
    (hnull : d ≠ .null) (hset : c.set? d normal = some (.ok next)) :
    (addEntry source c (key, d)).run notes = (.ok next, notes) := by
  have hpath : normal ≠ pathKey := by
    rintro rfl
    exact absurd hset nofun
  unfold addEntry
  dsimp only
  rw [hkey, if_neg hpath, hset]
  cases d <;> first | rfl | exact absurd rfl hnull

theorem addEntry_path_run {key : Datum} (hkey : normalKey key.display = pathKey) (c : Curated)
    (d : Datum) :
    (addEntry source c (key, d)).run notes = (.ok c, notes ++ [pathNote source]) := by
  unfold addEntry
  dsimp only
  rw [if_pos hkey]
  rfl

/-- Statements that are understood are all read, and nothing is reported. -/
theorem foldlM_addEntry_run {statements : List Statement}
    (hunderstood : ∀ s ∈ statements, s.Understood) (c : Curated) :
    ((presentEntries (statements.map fun s => (s.key, s.value))).foldlM (addEntry source) c).run
      notes = (.ok (statements.foldl (fun c s => s.state c) c), notes) := by
  induction statements generalizing c with
  | nil => rfl
  | cons s rest ih =>
      obtain ⟨hfirst, hrest⟩ := List.forall_mem_cons.mp hunderstood
      obtain ⟨key, value, state⟩ := s
      have hstates := hfirst c
      rw [List.map_cons, List.foldl_cons]
      cases value with
      | none =>
          have hskip : presentEntries ((key, none) :: rest.map fun s => (s.key, s.value)) =
              presentEntries (rest.map fun s => (s.key, s.value)) := rfl
          dsimp only at hstates ⊢
          rw [hskip, hstates]
          exact ih hrest c
      | some d =>
          obtain ⟨hnull, hset⟩ := hstates
          have hcons : presentEntries ((key, some d) :: rest.map fun s => (s.key, s.value)) =
              (.text key, d) :: presentEntries (rest.map fun s => (s.key, s.value)) := rfl
          have hkey : normalKey (Datum.text key).display = normalKey key := rfl
          have hentry : (addEntry source c (.text key, d)).run notes = (.ok (state c), notes) :=
            addEntry_run hkey hnull hset
          have hrun := ih hrest (state c)
          dsimp only
          rw [hcons, List.foldlM_cons, Reading.run_bind, hentry]
          exact hrun

end Curated

/-! ## The data of a record -/

namespace ComponentRecord

variable {r base : ComponentRecord}

/-- The statements of a record's data in front of the path. -/
def requiredStatements (r : ComponentRecord) : List Curated.Statement := [
  .of "id" .text (fun s c => { c with id := some s }) (some r.id),
  .of "name" .text (fun s c => { c with name := some s }) (some r.name),
  .of "description" .text (fun s c => { c with description := some s }) (some r.description),
  .of "category" .text (fun s c => { c with category := some s }) (some r.category),
  .of "props" (fun ps => .list (ps.map Property.toDatum))
    (fun ps c => { c with properties := some (ps.map Property.stated) }) (some r.properties),
  .of "tokens" .texts (fun items c => { c with tokens := some items }) (some r.tokens),
  .of "examples" (fun es => .list (es.map UsageExample.toDatum))
    (fun es c => { c with examples := some es }) (some r.examples)]

/-- The statements of a record's data behind the path. -/
def optionalStatements (r : ComponentRecord) : List Curated.Statement := [
  .of "accessibility" Accessibility.toDatum (fun a c => { c with accessibility := some a })
    r.accessibility,
  .of "notes" .texts (fun items c => { c with notes := some items }) r.notes,
  .of "deprecatedProps" .texts (fun items c => { c with deprecatedProperties := some items })
    r.deprecatedProperties,
  .of "migrationGuide" .text (fun s c => { c with migrationGuide := some s }) r.migrationGuide,
  .of "version" .text (fun s c => { c with version := some s }) r.version,
  .of "lastModified" (fun t => .text t.zonedText) (fun t c => { c with lastModified := some t })
    r.lastModified]

theorem entries_eq (r : ComponentRecord) :
    r.entries = presentEntries (r.requiredStatements.map fun s => (s.key, s.value)) ++
      (.text "filePath", .text r.filePath) ::
        presentEntries (r.optionalStatements.map fun s => (s.key, s.value)) := rfl

/-- What the data of a record state. -/
def stated (r : ComponentRecord) : Curated where
  id := some r.id
  name := some r.name
  description := some r.description
  category := some r.category
  properties := some (r.properties.map Property.stated)
  tokens := some r.tokens
  examples := some r.examples
  accessibility := r.accessibility
  notes := r.notes
  deprecatedProperties := r.deprecatedProperties
  migrationGuide := r.migrationGuide
  version := r.version
  lastModified := r.lastModified

theorem foldl_statements (r : ComponentRecord) :
    r.optionalStatements.foldl (fun c s => s.state c)
      (r.requiredStatements.foldl (fun c s => s.state c) {}) = r.stated := by
  obtain ⟨id, name, description, category, filePath, properties, tokens, examples, accessibility,
    notes, deprecated, guide, version, modified⟩ := r
  simp only [requiredStatements, optionalStatements, Curated.Statement.of, stated,
    List.foldl_cons, List.foldl_nil, Option.elim_some]
  -- a field that is unset states nothing, and is unset in a curated record from the start
  cases accessibility <;> cases notes <;> cases deprecated <;> cases guide <;> cases version <;>
    cases modified <;> rfl

open Curated in
theorem understood_requiredStatements (r : ComponentRecord) :
    ∀ s ∈ r.requiredStatements, s.Understood := by
  have hproperties (ps : List Property) : propertyList (.list (ps.map Property.toDatum)) =
      .ok (ps.map Property.stated) :=
    mapM_map_ok fun p _ => curatedProperty_toDatum p
  have hexamples (es : List UsageExample) : exampleList (.list (es.map UsageExample.toDatum)) =
      .ok es := by
    have hitems : (es.map UsageExample.toDatum).mapM usageExample = .ok (es.map fun e => e) :=
      mapM_map_ok fun e _ => usageExample_toDatum e
    rwa [List.map_id'] at hitems
  unfold requiredStatements
  simp only [List.forall_mem_cons]
  refine ⟨?id, ?name, ?description, ?category, ?props, ?tokens, ?examples, by simp⟩
  case id => exact .of_read "id" text (by decide) nofun (fun _ _ => rfl) fun _ _ => rfl
  case name => exact .of_read "name" text (by decide) nofun (fun _ _ => rfl) fun _ _ => rfl
  case description =>
    exact .of_read "description" text (by decide) nofun (fun _ _ => rfl) fun _ _ => rfl
  case category =>
    exact .of_read "category" text (by decide) nofun (fun _ _ => rfl) fun _ _ => rfl
  case props =>
    -- what is read is the curated form of the properties, not the properties themselves
    refine .of "props" (by decide) nofun fun ps _ c => ?_
    change some (do return { c with properties := some (← propertyList _) }) = _
    rw [hproperties]
    rfl
  case tokens =>
    exact .of_read "tokens" texts (by decide) nofun (fun _ _ => rfl) fun items _ =>
      texts_texts items
  case examples =>
    exact .of_read "examples" exampleList (by decide) nofun (fun _ _ => rfl) fun es _ =>
      hexamples es

open Curated in
theorem understood_optionalStatements (hmodified : ∀ t ∈ r.lastModified, t.Valid) :
    ∀ s ∈ r.optionalStatements, s.Understood := by
  unfold optionalStatements
  simp only [List.forall_mem_cons]
  refine ⟨?accessibility, ?notes, ?deprecated, ?guide, ?version, ?modified, by simp⟩
  case accessibility =>
    exact .of_read "accessibility" guidance (by decide) nofun (fun _ _ => rfl) fun a _ =>
      guidance_toDatum a
  case notes =>
    exact .of_read "notes" texts (by decide) nofun (fun _ _ => rfl) fun items _ =>
      texts_texts items
  case deprecated =>
    exact .of_read "deprecated_props" texts (by decide) nofun (fun _ _ => rfl) fun items _ =>
      texts_texts items
  case guide =>
    exact .of_read "migration_guide" text (by decide) nofun (fun _ _ => rfl) fun _ _ => rfl
  case version =>
    exact .of_read "version" text (by decide) nofun (fun _ _ => rfl) fun _ _ => rfl
  case modified =>
    exact .of_read "last_modified" moment (by decide) nofun (fun _ _ => rfl) fun t ht =>
      moment_zonedText (hmodified t ht)

/-- The data of a record with a known category are read as what they state; all that is reported is
that the path is not taken from them. -/
theorem parse_entries (source : String) (hcategory : r.category ∈ categories)
    (hmodified : ∀ t ∈ r.lastModified, t.Valid) :
    Curated.parse source r.entries = (.ok r.stated, [Curated.pathNote source]) := by
  have hpath : Curated.normalKey (Datum.text "filePath").display = Curated.pathKey := by decide
  have hfold : (r.entries.foldlM (Curated.addEntry source) {}).run [] =
      (.ok r.stated, [Curated.pathNote source]) := by
    rw [entries_eq, List.foldlM_append, Curated.Reading.run_bind,
      Curated.foldlM_addEntry_run r.understood_requiredStatements]
    dsimp only
    rw [List.foldlM_cons, Curated.Reading.run_bind, Curated.addEntry_path_run hpath]
    dsimp only
    rw [Curated.foldlM_addEntry_run (understood_optionalStatements hmodified), foldl_statements]
    rfl
  have hcheck : (Curated.checkCategory source r.stated).run [Curated.pathNote source] =
      (.ok r.stated, [Curated.pathNote source]) :=
    Curated.checkCategory_run_of_mem rfl hcategory
  rw [Curated.parse, Curated.read, Curated.Reading.run_bind, hfold]
  exact hcheck

/-- A record without properties and without any of the fields that may be unset. -/
structure Bare (r : ComponentRecord) : Prop where
  properties_eq : r.properties = []
  accessibility_eq : r.accessibility = none
  notes_eq : r.notes = none
  deprecatedProperties_eq : r.deprecatedProperties = none
  migrationGuide_eq : r.migrationGuide = none
  version_eq : r.version = none
  lastModified_eq : r.lastModified = none

/-- Merged into a bare record, what a record states is the record. -/
theorem apply_stated (hbase : base.Bare) (hnames : (r.properties.map Property.name).Nodup) :
    r.stated.apply base =
      { r with filePath := base.filePath, properties := sortProperties r.properties } := by
  have hstated : (r.properties.map Property.stated).map CuratedProperty.toProperty =
      r.properties := by
    rw [List.map_map]
    exact List.map_id'' Property.toProperty_stated r.properties
  have hcurated : ((r.properties.map Property.stated).map CuratedProperty.name).Nodup := by
    rwa [List.map_map]
  have hproperties : Merging.properties [] (r.properties.map Property.stated) =
      sortProperties r.properties := by
    rw [Merging.properties_nil hcurated, hstated]
  have hunset {α : Type} (value : Option α) : (value <|> none) = value := by
    cases value <;> rfl
  unfold Curated.apply
  rw [hbase.properties_eq, hbase.accessibility_eq, hbase.notes_eq,
    hbase.deprecatedProperties_eq, hbase.migrationGuide_eq, hbase.version_eq,
    hbase.lastModified_eq]
  simp only [stated, Option.getD_some, hproperties, hunset]

/-- **The data of a record state the record.**  Read as curated data they are accepted, with
nothing reported but that the path is not taken from them, and merged into a bare record they give
the record back under the path of the bare one, its properties in listing order. -/
theorem parse_entries_apply (source : String) (hcategory : r.category ∈ categories)
    (hnames : (r.properties.map Property.name).Nodup)
    (hmodified : ∀ t ∈ r.lastModified, t.Valid) (hbase : base.Bare) :
    ∃ curated : Curated,
      Curated.parse source r.entries =
        (.ok curated,
          [⟨source, .info, "Ignoring curated filePath; the analyzed path is kept"⟩]) ∧
      curated.apply base =
        { r with filePath := base.filePath, properties := sortProperties r.properties } :=
  ⟨r.stated, parse_entries source hcategory hmodified, apply_stated hbase hnames⟩

/-- A record with most of its fields set, some of them to empty texts, and a time in universal
time. -/
def fullRecord : ComponentRecord where
  id := "button"
  name := "Button"
  description := ""
  category := "Atoms"
  filePath := "/web/Button.tsx"
  properties := [⟨"size", "", false, some "", none⟩, ⟨"label", "string", true, none, some "true"⟩]
  tokens := ["color.text"]
  examples := [⟨"Plain", "<Button/>", none⟩]
  accessibility := some { keyboardNavigation := some "" }
  notes := some []
  lastModified := some ⟨⟨2024, 2, 29⟩, 9, 5, 0, 40, some 0⟩

theorem fullRecord_apply :
    ∃ curated : Curated,
      Curated.parse "Button.docs.yaml" fullRecord.entries =
        (.ok curated, [⟨"Button.docs.yaml", .info,
          "Ignoring curated filePath; the analyzed path is kept"⟩]) ∧
      curated.apply ⟨"", "", "", "", "/src/atoms/Button.tsx", [], ["t"], [], none, none, none, none,
          none, none⟩ =
        { fullRecord with
          filePath := "/src/atoms/Button.tsx"
          properties := sortProperties fullRecord.properties } := by
  have hvalid : DateTime.Valid ⟨⟨2024, 2, 29⟩, 9, 5, 0, 40, some 0⟩ := ⟨rfl, rfl, by decide⟩
  have hmodified : ∀ t ∈ fullRecord.lastModified, t.Valid := by
    rintro t ⟨⟩
    exact hvalid
  exact parse_entries_apply "Button.docs.yaml" (by decide) (by decide) hmodified
    ⟨rfl, rfl, rfl, rfl, rfl, rfl, rfl⟩

end ComponentRecord

end ComponentDocs
