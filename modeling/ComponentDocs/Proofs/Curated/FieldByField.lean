import Mathlib.Data.List.Induction
import ComponentDocs.Proofs.Curated.RoundTrip

/-!
# Curated records field by field

A mapping is read entry by entry, and several spellings of a key can name the same field.  What
comes of that is said of each field on its own: the field has the value read from the last entry
that names it and is not null (`lastValue?`).  One entry whose value cannot be read refuses the whole
mapping; entries that name the path or no field at all are passed over with a note; and the category
is checked when everything has been read.

`parse_eq` states all of this.  It is proved by one lemma for each thing that an entry can do
(`addEntry_run_of_refusal?`, `addEntry_run_of_refusal?_eq_none`), an induction over the entries for
the notes, and another one, from the last entry backwards, for the fields.
-/

namespace ComponentDocs.Curated

/-! ## Fields -/

/-- A field of a curated record. -/
inductive Field where
  | id
  | name
  | description
  | category
  | properties
  | tokens
  | examples
  | accessibility
  | notes
  | deprecatedProperties
  | migrationGuide
  | version
  | lastModified
  deriving DecidableEq, Repr

namespace Field

/-- All fields. -/
def all : List Field := [id, name, description, category, properties, tokens, examples,
  accessibility, notes, deprecatedProperties, migrationGuide, version, lastModified]

/-- The normal key of a field. -/
def key : Field → String
  | id => "id"
  | name => "name"
  | description => "description"
  | category => "category"
  | properties => "props"
  | tokens => "tokens"
  | examples => "examples"
  | accessibility => "accessibility"
  | notes => "notes"
  | deprecatedProperties => "deprecated_props"
  | migrationGuide => "migration_guide"
  | version => "version"
  | lastModified => "last_modified"

/-- What a field holds. -/
def Value : Field → Type
  | id | name | description | category | migrationGuide | version => String
  | tokens | notes | deprecatedProperties => List String
  | properties => List CuratedProperty
  | examples => List UsageExample
  | accessibility => Accessibility
  | lastModified => DateTime

/-- How the value of a field is read. -/
def read : (f : Field) → Datum → Except CuratedProblem f.Value
  | id | name | description | category | migrationGuide | version => text
  | tokens | notes | deprecatedProperties => texts
  | properties => propertyList
  | examples => exampleList
  | accessibility => guidance
  | lastModified => moment

/-- The value of a field in a record. -/
def get : (f : Field) → Curated → Option f.Value
  | id => Curated.id
  | name => Curated.name
  | description => Curated.description
  | category => Curated.category
  | properties => Curated.properties
  | tokens => Curated.tokens
  | examples => Curated.examples
  | accessibility => Curated.accessibility
  | notes => Curated.notes
  | deprecatedProperties => Curated.deprecatedProperties
  | migrationGuide => Curated.migrationGuide
  | version => Curated.version
  | lastModified => Curated.lastModified

/-- The record with the value of a field replaced. -/
def set : (f : Field) → f.Value → Curated → Curated
  | id, v, c => { c with id := some v }
  | name, v, c => { c with name := some v }
  | description, v, c => { c with description := some v }
  | category, v, c => { c with category := some v }
  | properties, v, c => { c with properties := some v }
  | tokens, v, c => { c with tokens := some v }
  | examples, v, c => { c with examples := some v }
  | accessibility, v, c => { c with accessibility := some v }
  | notes, v, c => { c with notes := some v }
  | deprecatedProperties, v, c => { c with deprecatedProperties := some v }
  | migrationGuide, v, c => { c with migrationGuide := some v }
  | version, v, c => { c with version := some v }
  | lastModified, v, c => { c with lastModified := some v }

/-- The field with a normal key. -/
def ofKey? (key : String) : Option Field := all.find? (·.key = key)

@[simp] theorem get_set (f : Field) (v : f.Value) (c : Curated) : f.get (f.set v c) = some v := by
  cases f <;> rfl

theorem get_set_of_ne {f g : Field} (hne : f ≠ g) (v : f.Value) (c : Curated) :
    g.get (f.set v c) = g.get c := by
  cases f <;> cases g <;> first | rfl | exact absurd rfl hne

theorem get_empty (f : Field) : f.get {} = none := by
  cases f <;> rfl

theorem key_ne_pathKey (f : Field) : f.key ≠ pathKey := by
  cases f <;> decide

theorem key_of_ofKey? {key : String} {f : Field} (hf : ofKey? key = some f) : f.key = key := by
  simpa using List.find?_some hf

theorem ofKey?_key (f : Field) : ofKey? f.key = some f := by
  cases f <;> decide

end Field

/-- Stating a field is reading and setting it. -/
theorem set?_eq (c : Curated) (d : Datum) (key : String) :
    c.set? d key = (Field.ofKey? key).map fun f => (f.read d).map fun v => f.set v c := by
  cases hfield : Field.ofKey? key with
  | some f =>
      rw [← Field.key_of_ofKey? hfield]
      cases f <;> exact congrArg some (map_eq_pure_bind _ _).symm
  | none =>
      have hkey : ∀ f ∈ Field.all, f.key ≠ key := by simpa using List.find?_eq_none.mp hfield
      simp only [Field.all, List.forall_mem_cons] at hkey
      unfold set?
      split <;> simp_all [Field.key]

/-! ## Entries -/

variable {source : String} {c : Curated} {entry : Datum × Datum} {entries : List (Datum × Datum)}
  {notes : List Diagnostic}

/-- Whether a value is null. -/
def isNull : Datum → Bool
  | .null => true
  | _ => false

/-- The field that an entry names. -/
def fieldOf? (entry : Datum × Datum) : Option Field := Field.ofKey? (normalKey entry.1.display)

/-- Why an entry is refused: it names a field, and its value, which is not null, cannot be read. -/
def refusal? (entry : Datum × Datum) : Option CuratedProblem :=
  match fieldOf? entry with
  | some f =>
    if isNull entry.2 then none
    else
      match f.read entry.2 with
      | .ok _ => none
      | .error e => some e
  | none => none

/-- What is reported of an entry: that it states the path, or that it names no field. -/
def note? (source : String) (entry : Datum × Datum) : Option Diagnostic :=
  if normalKey entry.1.display = pathKey then some (pathNote source)
  else
    match fieldOf? entry with
    | some _ => none
    | none => some ⟨source, .warning, "Ignoring unknown curated field " ++ entry.1.shown⟩

/-- The record with what one entry states. -/
def restated (c : Curated) (entry : Datum × Datum) : Curated :=
  match fieldOf? entry with
  | some f =>
    if isNull entry.2 then c
    else
      match f.read entry.2 with
      | .ok v => f.set v c
      | .error _ => c
  | none => c

private theorem addEntry_run_of_field {f : Field} (hfield : fieldOf? entry = some f) :
    (addEntry source c entry).run notes =
      if isNull entry.2 then (.ok c, notes)
      else
        match f.read entry.2 with
        | .ok v => (.ok (f.set v c), notes)
        | .error e => (.error e, notes) := by
  obtain ⟨key, d⟩ := entry
  have hkey : normalKey key.display = f.key := (Field.key_of_ofKey? hfield).symm
  unfold addEntry
  dsimp only
  rw [hkey, if_neg f.key_ne_pathKey, set?_eq, Field.ofKey?_key, Option.map_some]
  cases hread : f.read d <;> cases d <;> rfl

private theorem addEntry_run_of_not_field (hfield : fieldOf? entry = none) :
    (addEntry source c entry).run notes = (.ok c, notes ++ (note? source entry).toList) := by
  obtain ⟨key, d⟩ := entry
  have hkey : Field.ofKey? (normalKey key.display) = none := hfield
  unfold addEntry note?
  dsimp only
  rw [hfield]
  by_cases hpath : normalKey key.display = pathKey
  · rw [if_pos hpath, if_pos hpath]
    rfl
  · rw [if_neg hpath, if_neg hpath, set?_eq, hkey]
    rfl

/-- An entry that is refused ends the reading. -/
theorem addEntry_run_of_refusal? {e : CuratedProblem} (hrefused : refusal? entry = some e) :
    (addEntry source c entry).run notes = (.error e, notes) := by
  unfold refusal? at hrefused
  cases hfield : fieldOf? entry with
  | none => simp [hfield] at hrefused
  | some f =>
      rw [addEntry_run_of_field hfield]
      cases hread : f.read entry.2 <;> simp_all

/-- Any other entry states something or is noted. -/
theorem addEntry_run_of_refusal?_eq_none (haccepted : refusal? entry = none) :
    (addEntry source c entry).run notes =
      (.ok (restated c entry), notes ++ (note? source entry).toList) := by
  unfold restated
  cases hfield : fieldOf? entry with
  | none => exact addEntry_run_of_not_field hfield
  | some f =>
      have hnote : note? source entry = none := by
        rw [note?, hfield, if_neg]
        exact fun hpath => f.key_ne_pathKey ((Field.key_of_ofKey? hfield).trans hpath)
      rw [addEntry_run_of_field hfield, hnote, Option.toList_none, List.append_nil]
      unfold refusal? at haccepted
      by_cases hnull : isNull entry.2
      · simp [hnull]
      · cases hread : f.read entry.2 <;> simp_all

/-! ## All entries -/

/-- The last value, apart from null, among the entries that name a field. -/
def lastValue? (entries : List (Datum × Datum)) (f : Field) : Option Datum :=
  (entries.reverse.find? fun entry => fieldOf? entry = some f ∧ ¬ isNull entry.2).map Prod.snd

theorem lastValue?_append_singleton (entries : List (Datum × Datum)) (entry : Datum × Datum)
    (f : Field) :
    lastValue? (entries ++ [entry]) f =
      if fieldOf? entry = some f ∧ ¬ isNull entry.2 then some entry.2 else lastValue? entries f := by
  unfold lastValue?
  rw [List.reverse_append, List.reverse_singleton, List.singleton_append, List.find?_cons]
  by_cases hentry : fieldOf? entry = some f ∧ ¬ isNull entry.2
  · rw [decide_eq_true hentry, if_pos hentry]
    rfl
  · rw [decide_eq_false hentry, if_neg hentry]

/-- Entries of which none is refused are all read. -/
theorem foldlM_addEntry_run_of_accepted (haccepted : ∀ entry ∈ entries, refusal? entry = none) :
    (entries.foldlM (addEntry source) c).run notes =
      (.ok (entries.foldl restated c), notes ++ entries.filterMap (note? source)) := by
  induction entries generalizing c notes with
  | nil =>
      rw [List.filterMap_nil, List.append_nil]
      rfl
  | cons entry rest ih =>
      obtain ⟨hfirst, hrest⟩ := List.forall_mem_cons.mp haccepted
      have hnotes : notes ++ (note? source entry).toList ++ rest.filterMap (note? source) =
          notes ++ (entry :: rest).filterMap (note? source) := by
        cases hnote : note? source entry <;> simp [hnote]
      rw [List.foldlM_cons, Reading.run_bind, addEntry_run_of_refusal?_eq_none hfirst]
      dsimp only
      rw [ih hrest, hnotes, List.foldl_cons]

/-- **A field has the value read from the last entry that states it.** -/
theorem mapM_read_lastValue? (haccepted : ∀ entry ∈ entries, refusal? entry = none) (f : Field) :
    (lastValue? entries f).mapM f.read = .ok (f.get (entries.foldl restated {})) := by
  induction entries using List.reverseRecOn with
  | nil => rw [List.foldl_nil, Field.get_empty]; rfl
  | append_singleton before entry ih =>
      have hbefore := ih fun other hother => haccepted other (List.mem_append_left _ hother)
      have hentry : refusal? entry = none := haccepted entry (by simp)
      rw [lastValue?_append_singleton, List.foldl_append, List.foldl_cons, List.foldl_nil]
      generalize before.foldl restated {} = c at hbefore ⊢
      unfold refusal? at hentry
      unfold restated
      cases hfield : fieldOf? entry with
      | none => simpa [hfield] using hbefore
      | some g =>
          by_cases hnull : isNull entry.2
          · simpa [hfield, hnull] using hbefore
          · cases hread : g.read entry.2 with
            | error e => simp [hfield, hnull, hread] at hentry
            | ok v =>
                by_cases hsame : g = f
                · subst hsame
                  simp [hnull, hread, Functor.map, Except.map]
                · simpa [hnull, hread, hsame, Field.get_set_of_ne hsame] using hbefore

/-! ## The category -/

/-- The record without a category that does not exist. -/
def knownCategory (c : Curated) : Curated :=
  { c with category := c.category.filter categories.contains }

/-- What is reported of a category that does not exist. -/
def categoryNotes (source : String) (c : Curated) : List Diagnostic :=
  match c.category with
  | some category =>
    if categories.contains category then []
    else [⟨source, .warning,
      "Unknown category " ++ Text.quoted category ++ "; inferring from path"⟩]
  | none => []

theorem checkCategory_run (source : String) (c : Curated) (notes : List Diagnostic) :
    (checkCategory source c).run notes =
      (.ok c.knownCategory, notes ++ categoryNotes source c) := by
  unfold checkCategory knownCategory categoryNotes
  cases hc : c.category with
  | none =>
      have hsame : { c with category := none } = c := by rw [← hc]
      rw [Option.filter_none, List.append_nil, hsame]
      rfl
  | some category =>
      have hsame : { c with category := some category } = c := by rw [← hc]
      dsimp only
      by_cases hknown : categories.contains category = true
      · rw [if_pos hknown, if_pos hknown, Option.filter_some, if_pos hknown, List.append_nil, hsame]
        rfl
      · rw [if_neg hknown, if_neg hknown, Option.filter_some, if_neg hknown]
        rfl

/-! ## Mappings -/

/-- **What a mapping states, and when it is refused.**  It is refused if and only if one of its
entries is, for the reason why the first such entry is, and what has been reported then are the notes
on the entries before.  Otherwise each field has the value read from the last entry that names it and
is not null, and none if there is no such entry, except that a category that does not exist is left
out at the end; what has been reported are the notes on all entries, and then one on the category if
it is left out. -/
theorem parse_eq (source : String) (entries : List (Datum × Datum)) :
    ((∃ e, (parse source entries).1 = .error e) ↔
      ∃ entry ∈ entries, (refusal? entry).isSome) ∧
    (∀ before entry after e, entries = before ++ entry :: after →
      (∀ other ∈ before, refusal? other = none) → refusal? entry = some e →
      parse source entries = (.error e, before.filterMap (note? source))) ∧
    ((∀ entry ∈ entries, refusal? entry = none) →
      ∃ c : Curated, (∀ f : Field, (lastValue? entries f).mapM f.read = .ok (f.get c)) ∧
        parse source entries =
          (.ok c.knownCategory, entries.filterMap (note? source) ++ categoryNotes source c)) := by
  have hrefused (before : List (Datum × Datum)) (entry after e)
      (hsplit : entries = before ++ entry :: after)
      (hbefore : ∀ other ∈ before, refusal? other = none) (hentry : refusal? entry = some e) :
      parse source entries = (.error e, before.filterMap (note? source)) := by
    rw [parse, read, Reading.run_bind, hsplit, List.foldlM_append, Reading.run_bind,
      foldlM_addEntry_run_of_accepted hbefore]
    dsimp only
    rw [List.foldlM_cons, Reading.run_bind, addEntry_run_of_refusal? hentry, List.nil_append]
  have haccepted (hall : ∀ entry ∈ entries, refusal? entry = none) :
      parse source entries = (.ok (entries.foldl restated {}).knownCategory,
        entries.filterMap (note? source) ++ categoryNotes source (entries.foldl restated {})) := by
    rw [parse, read, Reading.run_bind, foldlM_addEntry_run_of_accepted hall, List.nil_append]
    exact checkCategory_run _ _ _
  refine ⟨⟨?refused, ?error⟩, hrefused, ?accepted⟩
  case refused =>
    rintro ⟨e, he⟩
    by_contra hnone
    rw [haccepted fun entry hentry => by
      simpa using fun h => hnone ⟨entry, hentry, h⟩] at he
    cases he
  case error =>
    rintro ⟨entry, hentry, hsome⟩
    obtain ⟨first, hfirst⟩ : ∃ first, entries.find? (refusal? · |>.isSome) = some first :=
      Option.isSome_iff_exists.mp (List.find?_isSome.mpr ⟨entry, hentry, hsome⟩)
    obtain ⟨hsome, before, after, hsplit, hbefore⟩ := List.find?_eq_some_iff_append.mp hfirst
    obtain ⟨e, he⟩ := Option.isSome_iff_exists.mp hsome
    exact ⟨e, by rw [hrefused before first after e hsplit (by simpa using hbefore) he]⟩
  case accepted =>
    exact fun hall => ⟨_, mapM_read_lastValue? hall, haccepted hall⟩

/-- The last spelling of a key counts, a null after it does not, and a category that does not exist is
left out. -/
example : parse "d" [(.text "migration_guide", .text "1"), (.text "migrationGuide", .text "2"),
    (.text "MigrationGuide", .null), (.text "category", .text "None")] =
    (.ok { migrationGuide := some "2" }, categoryNotes "d" { category := some "None" }) := by
  decide +kernel

end ComponentDocs.Curated
