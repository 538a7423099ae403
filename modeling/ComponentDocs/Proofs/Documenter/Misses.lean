import ComponentDocs.Proofs.Documenter.Freshness

/-!
# Requests that find no record

A documenter that keeps no record of a component makes a new one, but it makes it from the parse of
the source file that it has kept, if there is one.  Clearing keeps each parse that is still current
at that time, so a file that changes afterwards is not read again
(`stale_reply_after_clear`).  `document_eq_iff_of_miss` says exactly when the reply is the one of a
new documenter: unless no record can be made at all, when the parse that is kept and the file on
disk give the same list of properties.
-/

namespace ComponentDocs

open Source Project

namespace Documenter

variable {setup : DocumenterSetup} {fs : FileSystem} {path : Path}

/-- The extracted properties reach a record through its list of properties only. -/
theorem recordFrom_eq_map (extracted : List Property) :
    recordFrom setup fs path extracted =
      (recordFrom setup fs path []).map fun made =>
        ({ made.1 with properties := mergedProperties setup fs path extracted }, made.2) := by
  unfold recordFrom mergedProperties
  cases (curatedFor fs path setup.formats).1 with
  | error e => rfl
  | ok curated =>
      simp only [BaseRecord.build, bind, Except.bind, pure, Except.pure]
      cases BaseRecord.changeTime fs path with
      | error e => rfl
      | ok time => cases fingerprint setup fs path <;> rfl

/-- Records for which different properties were extracted are the same if and only if there are
none or they list the same properties in the end. -/
theorem recordFrom_eq_iff (first second : List Property) :
    (recordFrom setup fs path first).toOption.map Prod.fst =
        (recordFrom setup fs path second).toOption.map Prod.fst ↔
      (recordFrom setup fs path second).toOption.map Prod.fst = none ∨
        mergedProperties setup fs path first = mergedProperties setup fs path second := by
  rw [recordFrom_eq_map first, recordFrom_eq_map second]
  cases recordFrom setup fs path [] with
  | error e => simp [Except.map, Except.toOption]
  | ok made =>
      simp only [Except.map, Except.toOption, Option.map_some, Option.some.injEq, reduceCtorEq,
        false_or]
      constructor
      · intro h
        injection h
      · intro h
        rw [h]

end Documenter

open Documenter Extraction

/-- With only their own properties listed, components are extracted from the parse that is kept
and else from the file on disk. -/
theorem propertiesAt_eq (c : Configuration)
    (hdirect : c.setup.selection.inheritedProperties = false) {fs : FileSystem} {place : Path}
    (hplace : place.Settled) (P : Project) :
    propertiesAt c.setup fs place P =
      match P.file? place with
      | some file => directProperties c.setup.typeNamespaces c.setup.selection file
      | none => propertiesAt c.setup fs place c.documenter.state.project := by
  unfold propertiesAt
  rw [properties_of_not_inherited hdirect hplace, properties_of_not_inherited hdirect hplace]
  unfold fileAt
  cases P.file? place <;> rfl

/-- A parse of the bytes that are on disk gives what the file gives. -/
theorem directProperties_eq_of_read (c : Configuration)
    (hdirect : c.setup.selection.inheritedProperties = false) {fs : FileSystem} {place : Path}
    (hplace : place.Settled) {file : ParsedFile} (hpath : file.path = place)
    (hread : fs.read place = .ok file.source) :
    directProperties c.setup.typeNamespaces c.setup.selection file =
      propertiesAt c.setup fs place c.documenter.state.project := by
  have hfile : c.documenter.state.project.fileAt fs place = .ok file := by
    have hfresh : c.documenter.state.project.file? place = none := rfl
    simp only [fileAt, hfresh, hread]
    rw [← hpath, ← eq_ofSource]
  unfold propertiesAt
  rw [properties_of_not_inherited hdirect hplace, hfile]

/-- **A request that finds no record replies as a new documenter does exactly if the parse that is
kept gives what the file gives.**  That is so in particular when no parse is kept, or one of the
bytes that are on disk. -/
theorem document_eq_iff_of_miss (c : Configuration)
    (hdirect : c.setup.selection.inheritedProperties = false) (disk : Disk)
    (history : List Event) (path : String) (place : Path)
    (hplace : (c.session disk history).disk.canonical (Path.ofString path) = .ok place)
    (hmiss : (c.session disk history).documenter.state.store.get? place.toString = none) :
    let s := c.session disk history
    let kept := s.documenter.state.project.file? place
    let reply := (s.documenter.document s.disk.toFileSystem (Path.ofString path)).map Prod.fst
    let fresh := (c.documenter.document s.disk.toFileSystem (Path.ofString path)).map Prod.fst
    let listed := mergedProperties c.setup s.disk.toFileSystem place
    let found := propertiesAt c.setup s.disk.toFileSystem place c.documenter.state.project
    (reply = fresh ↔ fresh = .ok none ∨ ∀ file, kept = some file →
      listed (directProperties c.setup.typeNamespaces c.setup.selection file) = listed found) ∧
    ((∀ file, kept = some file → s.disk.read place = .ok file.source) → reply = fresh) := by
  intro s kept reply fresh listed found
  have hsettled : place.Settled := FileSystem.settled_of_canonical hplace
  let made (extracted : List Property) : Option ComponentRecord :=
    (recordFrom c.setup s.disk.toFileSystem place extracted).toOption.map Prod.fst
  let shown : List Property := propertiesAt c.setup s.disk.toFileSystem place
    s.documenter.state.project
  have hreply : reply = .ok (made shown) := by
    have hsetup : s.documenter.setup = c.setup := (c.follows_session disk history).setup_eq
    have hplace' : s.disk.canonical (Path.ofString path) = .ok place := hplace
    simp only [reply, document_eq, hplace', Except.map, hsetup]
    rw [recordAt_fst_of_get?_eq_none hsettled hmiss]
  have hfresh : fresh = .ok (made found) := by
    have hplace' : s.disk.canonical (Path.ofString path) = .ok place := hplace
    have hempty : c.documenter.state.store.get? place.toString = none := rfl
    simp only [fresh, document_eq, hplace', Except.map]
    rw [recordAt_fst_of_get?_eq_none hsettled hempty]
    rfl
  -- both replies are made on the same files, so only what was extracted can differ
  have hexact : reply = fresh ↔ fresh = .ok none ∨ listed shown = listed found := by
    rw [hreply, hfresh, Except.ok.injEq, Except.ok.injEq]
    exact recordFrom_eq_iff shown found
  have hshown : shown = match kept with
      | some file => directProperties c.setup.typeNamespaces c.setup.selection file
      | none => found := propertiesAt_eq c hdirect hsettled _
  constructor
  · rw [hexact, hshown]
    cases kept with
    | none => simp
    | some file => simp
  · intro hcurrent
    refine hexact.mpr (.inr (congrArg listed ?_))
    rw [hshown]
    cases hkept : kept with
    | none => rfl
    | some file =>
        exact directProperties_eq_of_read c hdirect hsettled (path_of_file? hkept)
          (hcurrent file hkept)

/-! ## A file that changes after the documenter is cleared -/

/-- A component is documented, the documenter is cleared, and only then the file changes. -/
def clearedThenChanged : List Event :=
  [.change (.holding "T.ts" "interface TProps\x7ba:A\x7d"), .call (.document "T.ts"),
    .call .clear, .change (.holding "T.ts" "interface TProps\x7bb:B\x7d")]

/-- No record is kept, but the reply is still made from the source as it was. -/
theorem stale_reply_after_clear :
    let c := Configuration.plain {}
    let s := c.session .blank clearedThenChanged
    s.documenter.state.store.keys = [] ∧
    replyNames (s.documenter.document s.disk.toFileSystem (Path.ofString "T.ts")) =
      some ["a"] ∧
    replyNames (c.documenter.document s.disk.toFileSystem (Path.ofString "T.ts")) =
      some ["b"] := by
  decide +kernel

/-- Without the change the reply is the one of a new documenter. -/
theorem reply_after_clear :
    let c := Configuration.plain {}
    let s := c.session .blank (clearedThenChanged.take 3)
    c.setup.selection.inheritedProperties = false ∧
    s.disk.canonical (Path.ofString "T.ts") = .ok ⟨.root, ["T.ts"]⟩ ∧
    s.documenter.state.store.get? (Path.toString ⟨.root, ["T.ts"]⟩) = none ∧
    (s.documenter.document s.disk.toFileSystem (Path.ofString "T.ts")).map Prod.fst =
      (c.documenter.document s.disk.toFileSystem (Path.ofString "T.ts")).map Prod.fst := by
  intro c s
  have hplace : s.disk.canonical (Path.ofString "T.ts") = .ok ⟨.root, ["T.ts"]⟩ := rfl
  have hmiss : s.documenter.state.store.get? (Path.toString ⟨.root, ["T.ts"]⟩) = none := rfl
  have hreset : EndsInReset (clearedThenChanged.take 3) :=
    .inr ⟨clearedThenChanged.take 2, .inl rfl⟩
  have hkept : ∀ file, s.documenter.state.project.file? ⟨.root, ["T.ts"]⟩ = some file →
      s.disk.read ⟨.root, ["T.ts"]⟩ = .ok file.source :=
    fun _ => (faithful_of_endsInReset c .blank hreset).read_of_file?
  exact ⟨rfl, hplace, hmiss, (document_eq_iff_of_miss c rfl .blank (clearedThenChanged.take 3)
    "T.ts" ⟨.root, ["T.ts"]⟩ hplace hmiss).2 hkept⟩

end ComponentDocs
