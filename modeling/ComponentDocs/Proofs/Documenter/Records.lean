import ComponentDocs.Documenter
import ComponentDocs.Proofs.Data.Results
import ComponentDocs.Proofs.Data.Stores
import ComponentDocs.Proofs.Extraction.Lockstep

/-!
# Making and keeping records

A documenter looks at its own state in two ways only when it is asked for a record: whether a
record is kept under the path, and, if none is, what its project shows.  Apart from that the record
is a function of the files (`recordFrom`).  What it does to its state is to read more files and to
keep the record.
-/

namespace ComponentDocs

open Source Project

namespace Documenter

variable {setup : DocumenterSetup} {fs : FileSystem} {path : Path} {state : DocumenterState}

/-- The record that a component gets if the given properties are found, with its fingerprint. -/
def recordFrom (setup : DocumenterSetup) (fs : FileSystem) (path : Path)
    (properties : List Property) : Except Fault (ComponentRecord × Fingerprint) := do
  let curated ← (curatedFor fs path setup.formats).1
  let base ← BaseRecord.build fs path properties
  return (curated.apply base, ← fingerprint setup fs path)

/-- The properties that are found for a component. -/
def propertiesAt (setup : DocumenterSetup) (fs : FileSystem) (path : Path) (project : Project) :
    List Property :=
  (Extraction.properties fs setup.typeNamespaces setup.selection project path path.toString).1

/-- The properties of a record for which the given ones were extracted. -/
def mergedProperties (setup : DocumenterSetup) (fs : FileSystem) (path : Path)
    (extracted : List Property) : List Property :=
  match (curatedFor fs path setup.formats).1 with
  | .ok curated => Merging.properties (sortProperties extracted) (curated.properties.getD [])
  | .error _ => []

theorem recordAt_of_get? {record : ComponentRecord}
    (hkept : state.store.get? path.toString = some record) :
    recordAt setup fs path state = (some record, state) := by
  simp only [recordAt, hkept]

/-- Without a kept record a new one is made from what the project shows, and kept. -/
theorem recordAt_of_get?_eq_none (hpath : path.Settled)
    (hmiss : state.store.get? path.toString = none) :
    ∃ read : DocumenterState, Extends fs state.project read.project ∧
      read.store = state.store ∧
      recordAt setup fs path state =
        match recordFrom setup fs path (propertiesAt setup fs path state.project) with
        | .ok (record, print) =>
          (some record, { read with store := read.store.insert path.toString record print })
        | .error e =>
          (none, { read with diagnostics := read.diagnostics ++
            [⟨path.toString, .warning, "Error generating documentation: " ++ e.message⟩] }) := by
  refine ⟨(makeRecord setup fs path state).2, Extraction.properties_keeps hpath, rfl, ?_⟩
  have hmade : (makeRecord setup fs path state).1 =
      recordFrom setup fs path (propertiesAt setup fs path state.project) := rfl
  rw [← hmade]
  simp only [recordAt, hmiss]
  rcases makeRecord setup fs path state with ⟨_ | _, _⟩ <;> rfl

/-- Without a kept record the reply is a function of the files and of what the project shows. -/
theorem recordAt_fst_of_get?_eq_none (hpath : path.Settled)
    (hmiss : state.store.get? path.toString = none) :
    (recordAt setup fs path state).1 =
      (recordFrom setup fs path (propertiesAt setup fs path state.project)).toOption.map
        Prod.fst := by
  obtain ⟨read, -, -, hrecord⟩ := recordAt_of_get?_eq_none hpath hmiss
  rw [hrecord]
  rcases recordFrom setup fs path (propertiesAt setup fs path state.project) with _ | ⟨_, _⟩ <;>
    rfl

/-- What asking for a record does to the state: more files are read, and a record that is new was
made from what the project showed. -/
structure Asked (setup : DocumenterSetup) (fs : FileSystem) (path : Path)
    (state after : DocumenterState) : Prop where
  keeps : Extends fs state.project after.project
  entries : ∀ entry ∈ after.store.entries, entry ∈ state.store.entries ∨
    entry.key = path.toString ∧
      recordFrom setup fs path (propertiesAt setup fs path state.project) =
        .ok (entry.record, entry.fingerprint)

theorem recordAt_asked (hpath : path.Settled) :
    Asked setup fs path state (recordAt setup fs path state).2 := by
  cases hkept : state.store.get? path.toString with
  | some record =>
      rw [recordAt_of_get? hkept]
      exact ⟨.refl _ _, fun entry hentry => .inl hentry⟩
  | none =>
      obtain ⟨read, hkeeps, hstore, hrecord⟩ := recordAt_of_get?_eq_none hpath hkept
      rw [hrecord]
      cases hmade : recordFrom setup fs path (propertiesAt setup fs path state.project) with
      | error e => exact ⟨hkeeps, fun entry hentry => .inl (hstore ▸ hentry)⟩
      | ok made =>
          refine ⟨hkeeps, fun entry hentry => ?_⟩
          rcases RecordStore.mem_insert hentry with hentry | rfl
          · exact .inl (hstore ▸ hentry)
          · exact .inr ⟨rfl, hmade⟩

/-- A property of states that asking for one record preserves holds after asking for several. -/
theorem recordsAt_preserves {motive : DocumenterState → Prop} {paths : List Path}
    (hstep : ∀ path ∈ paths, ∀ state, motive state → motive (recordAt setup fs path state).2)
    (hstate : motive state) : motive (recordsAt setup fs paths state).2 := by
  induction paths generalizing state with
  | nil => exact hstate
  | cons path rest ih =>
      exact ih (fun p hp => hstep p (List.mem_cons_of_mem _ hp))
        (hstep path List.mem_cons_self state hstate)

end Documenter

end ComponentDocs
