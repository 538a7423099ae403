import ComponentDocs.Proofs.Curated.MergedProperties
import ComponentDocs.Proofs.Curated.StatedCategory
import ComponentDocs.Proofs.Documenter.History
import ComponentDocs.Proofs.Extraction.FirstOfEachName

/-!
# What holds of every record

Whatever happens to a documenter and its files, each record that it keeps or returns is well made:
its path is the one that it was asked for under and is kept under, its category is a known one, and
its properties have different names and stand in listing order (`records_wellMade`).

A record is well made from the start (`recordFrom_wellMade`), since extraction lists no name twice,
merging keeps it so, and no override file states an unknown category or another path.  Operations
only keep such records or drop some (`perform_cases`), so a documenter never has any others.
-/

namespace ComponentDocs

open Source Project

/-! ## The parts of a record -/

namespace Extraction

variable {fs : FileSystem}

private theorem nodup_names_expand {setting : Setting} {fuel : ℕ} {path : List DeclarationKey}
    {file : ParsedFile} {declaration : Declaration} {w : Walk} {found : List Property}
    (hfound : ((expand fs setting fuel path file declaration).run w).1 = .ok found) :
    (found.map Property.name).Nodup := by
  cases fuel with
  | zero =>
      cases hfound
      exact List.nodup_nil
  | succ fuel =>
      rw [expand_run] at hfound
      by_cases hpath : Node.key (file, declaration) ∈ path
      · rw [if_pos hpath] at hfound
        cases hfound
        exact List.nodup_nil
      · rw [if_neg hpath] at hfound
        by_cases hseen : Node.key (file, declaration) ∈ w.expanded
        · rw [if_pos hseen] at hfound
          cases hfound
          exact List.nodup_nil
        · rw [if_neg hseen] at hfound
          by_cases hinherited : setting.selection.inheritedProperties = true
          · rw [if_pos hinherited] at hfound
            dsimp only at hfound
            generalize ((throughBases fs file (expand fs setting fuel
              (Node.key (file, declaration) :: path)) declaration.bases).run
                (Walking.marking w (Node.key (file, declaration)))).1 = below at hfound
            cases below with
            | error e => cases hfound
            | ok branches =>
                cases hfound
                exact nodup_names_firstOfEachName _
          · rw [if_neg hinherited] at hfound
            cases hfound
            exact nodup_names_firstOfEachName _

/-- **Extraction lists no name twice**, whatever is selected. -/
theorem nodup_names_properties (fs : FileSystem) (namespaces : List String)
    (selection : PropertySelection) (P : Project) (path : Path) (given : String) :
    ((properties fs namespaces selection P path given).1.map Property.name).Nodup := by
  -- a fault leaves no properties, so only the end of a walk matters
  have houtcome (r : Except Fault (List Property) × Walk)
      (hr : ∀ found, r.1 = .ok found → (found.map Property.name).Nodup) :
      ((outcome given r).1.map Property.name).Nodup := by
    obtain ⟨e | found, w⟩ := r
    · exact List.nodup_nil
    · exact hr found rfl
  rw [properties_eq]
  refine houtcome _ fun found hfound => ?_
  cases hplace : fs.canonical path with
  | error e => simp [hplace] at hfound
  | ok place =>
      cases hfile : P.fileAt fs place with
      | error e => simp [hplace, hfile] at hfound
      | ok file =>
          simp only [hplace, hfile] at hfound
          cases hprops : propsDeclaration? file with
          | none =>
              rw [walkOf_of_none hprops] at hfound
              cases hfound
              exact List.nodup_nil
          | some declaration =>
              rw [walkOf_of_some hprops] at hfound
              dsimp only at hfound
              generalize hresult : ((expand fs (settingFor namespaces selection file declaration)
                (declarationBound fs (P.keeping file) + 1) [] file declaration).run
                  ⟨P.keeping file, [], []⟩).1 = result at hfound
              cases result with
              | error e => cases hfound
              | ok listed =>
                  cases hfound
                  exact nodup_names_sortProperties.mpr (nodup_names_expand hresult)

end Extraction

theorem Category.ofPath_mem (path : Path) : ofPath path ∈ categories := by
  have hsegments : ∀ segment ∈ segments, segment.2 ∈ categories := by decide
  show ((segments.find? fun segment => path.parts.contains segment.1).map Prod.snd).getD
    defaultCategory ∈ categories
  cases hfound : segments.find? fun segment => path.parts.contains segment.1 with
  | none => exact List.mem_of_elem_eq_true rfl
  | some segment => exact hsegments segment (List.mem_of_find?_eq_some hfound)

theorem BaseRecord.eq_of_build {fs : FileSystem} {path : Path} {properties : List Property}
    {base : ComponentRecord} (hbase : build fs path properties = .ok base) :
    base.category = Category.ofPath path ∧ base.filePath = path.toString ∧
      base.properties = sortProperties properties := by
  unfold build at hbase
  cases htime : changeTime fs path with
  | error e => simp [htime, bind, Except.bind] at hbase
  | ok time =>
      rw [htime] at hbase
      have hbase := Except.ok.inj hbase
      rw [← hbase]
      exact ⟨rfl, rfl, rfl⟩

/-! ## Well-made records -/

/-- Whether a record is what every documenter makes: in a known category, and with properties that
have different names and stand in listing order. -/
structure ComponentRecord.WellMade (r : ComponentRecord) : Prop where
  category_mem : r.category ∈ categories
  names_nodup : (r.properties.map Property.name).Nodup
  properties_ordered : r.properties.Pairwise Property.Before

/-- Merging makes a well-made record of any one with different names of properties, whatever is
curated of them. -/
theorem Curated.apply_wellMade {curated : Curated} {base : ComponentRecord}
    (hcurated : ∀ category ∈ curated.category, category ∈ categories)
    (hcategory : base.category ∈ categories)
    (hnames : (base.properties.map Property.name).Nodup) : (curated.apply base).WellMade where
  category_mem := by
    unfold apply
    cases hstated : curated.category with
    | none => exact hcategory
    | some category => exact hcurated category hstated
  names_nodup := Merging.nodup_names_properties hnames _
  properties_ordered := Merging.pairwise_before_properties hnames _

namespace Documenter

variable {setup : DocumenterSetup} {fs : FileSystem} {path : Path} {state : DocumenterState}

/-- **A record is well made from the start**, and its path is the one that it is made for. -/
theorem recordFrom_wellMade {extracted : List Property} {record : ComponentRecord}
    {print : Fingerprint} (hextracted : (extracted.map Property.name).Nodup)
    (hmade : recordFrom setup fs path extracted = .ok (record, print)) :
    record.WellMade ∧ record.filePath = path.toString := by
  unfold recordFrom at hmade
  cases hcurated : (curatedFor fs path setup.formats).1 with
  | error e => simp [hcurated, bind, Except.bind] at hmade
  | ok curated =>
      cases hbase : BaseRecord.build fs path extracted with
      | error e => simp [hcurated, hbase, bind, Except.bind] at hmade
      | ok base =>
          obtain ⟨hcategory, hpath, hproperties⟩ := BaseRecord.eq_of_build hbase
          have hrecord : record = curated.apply base := by
            rw [hcurated, hbase] at hmade
            cases hprint : fingerprint setup fs path with
            | error e => simp [hprint, bind, Except.bind] at hmade
            | ok made =>
                rw [hprint] at hmade
                cases hmade
                rfl
          rw [hrecord]
          refine ⟨Curated.apply_wellMade (category_of_curatedFor hcurated) ?_ ?_, hpath⟩
          · exact hcategory ▸ Category.ofPath_mem path
          · rw [hproperties]
            exact nodup_names_sortProperties.mpr hextracted

end Documenter

/-! ## Stores of well-made records -/

/-- Whether a kept record is well made and bears the path that it is kept under, which is a
canonical one. -/
structure StoredRecord.Sound {φ : Type} (entry : StoredRecord φ) : Prop where
  wellMade : entry.record.WellMade
  filePath_eq : entry.record.filePath = entry.key
  exists_place : ∃ place : Path, place.Settled ∧ entry.key = place.toString

/-- Whether all kept records are sound. -/
def DocumenterState.Sound (state : DocumenterState) : Prop :=
  ∀ entry ∈ state.store.entries, entry.Sound

/-- What is kept under a path in a sound state is well made and bears that path. -/
theorem DocumenterState.Sound.of_get? {state : DocumenterState} (hstate : state.Sound)
    {key : String} {record : ComponentRecord} (hkept : state.store.get? key = some record) :
    record.WellMade ∧ record.filePath = key := by
  obtain ⟨entry, hentry, hkey, hrecord⟩ := RecordStore.exists_entry_of_get? hkept
  have hsound := hstate entry hentry
  rw [← hrecord, ← hkey]
  exact ⟨hsound.wellMade, hsound.filePath_eq⟩

namespace Documenter

variable {setup : DocumenterSetup} {fs : FileSystem} {path : Path} {state : DocumenterState}

theorem sound_recordAt (hpath : path.Settled) (hstate : state.Sound) :
    (recordAt setup fs path state).2.Sound := by
  intro entry hentry
  rcases (recordAt_asked hpath).entries entry hentry with hkept | ⟨hkey, hmade⟩
  · exact hstate entry hkept
  · obtain ⟨hwellMade, hfilePath⟩ :=
      recordFrom_wellMade (Extraction.nodup_names_properties fs _ _ _ _ _) hmade
    exact ⟨hwellMade, hfilePath.trans hkey.symm, path, hpath, hkey⟩

/-- Asking for a record drops none of those that are kept. -/
theorem get?_recordAt (hpath : path.Settled) {key : String} {kept : ComponentRecord}
    (hkept : state.store.get? key = some kept) :
    (recordAt setup fs path state).2.store.get? key = some kept := by
  cases hstored : state.store.get? path.toString with
  | some record =>
      rw [recordAt_of_get? hstored]
      exact hkept
  | none =>
      obtain ⟨read, -, hstore, hrecord⟩ := recordAt_of_get?_eq_none hpath hstored
      rw [hrecord]
      cases recordFrom setup fs path (propertiesAt setup fs path state.project) with
      | error e => exact hstore ▸ hkept
      | ok made =>
          have hother : key ≠ path.toString := by
            rintro rfl
            rw [hstored] at hkept
            cases hkept
          exact (RecordStore.get?_insert_of_ne hother).trans (hstore ▸ hkept)

/-- A record that is returned is kept from then on, under the path that was asked for. -/
theorem get?_of_recordAt (hpath : path.Settled) {record : ComponentRecord}
    (hreply : (recordAt setup fs path state).1 = some record) :
    (recordAt setup fs path state).2.store.get? path.toString = some record := by
  cases hstored : state.store.get? path.toString with
  | some kept =>
      rw [recordAt_of_get? hstored] at hreply ⊢
      exact hstored.trans hreply
  | none =>
      obtain ⟨read, -, hstore, hrecord⟩ := recordAt_of_get?_eq_none hpath hstored
      rw [hrecord] at hreply ⊢
      cases hmade : recordFrom setup fs path (propertiesAt setup fs path state.project) with
      | error e =>
          rw [hmade] at hreply
          cases hreply
      | ok made =>
          rw [hmade] at hreply
          cases hreply
          exact RecordStore.get?_insert_self

/-- Each of the records that are returned for several components is kept under one of their
paths. -/
theorem exists_of_mem_recordsAt {paths : List Path} (hpaths : ∀ p ∈ paths, p.Settled)
    {record : ComponentRecord} (hrecord : record ∈ (recordsAt setup fs paths state).1) :
    ∃ p ∈ paths, (recordsAt setup fs paths state).2.store.get? p.toString = some record := by
  induction paths generalizing state with
  | nil => exact absurd hrecord List.not_mem_nil
  | cons path rest ih =>
      obtain ⟨hpath, hrest⟩ := List.forall_mem_cons.mp hpaths
      rw [recordsAt] at hrecord ⊢
      dsimp only at hrecord ⊢
      rcases List.mem_append.mp hrecord with hfirst | hlater
      · refine ⟨path, List.mem_cons_self, ?_⟩
        have hkept := get?_of_recordAt hpath (Option.mem_toList.mp hfirst)
        -- the requests that follow drop nothing
        exact recordsAt_preserves
          (motive := fun state => state.store.get? path.toString = some record)
          (fun p hp state hstate => get?_recordAt (hrest p hp) hstate) hkept
      · obtain ⟨p, hp, hkept⟩ := ih hrest hlater
        exact ⟨p, List.mem_cons_of_mem _ hp, hkept⟩

/-- A record that is kept is among those that are returned when its component is asked for. -/
theorem mem_recordsAt {paths : List Path} (hpaths : ∀ p ∈ paths, p.Settled) {place : Path}
    (hplace : place ∈ paths) {record : ComponentRecord}
    (hkept : state.store.get? place.toString = some record) :
    record ∈ (recordsAt setup fs paths state).1 := by
  induction paths generalizing state with
  | nil => exact absurd hplace List.not_mem_nil
  | cons path rest ih =>
      obtain ⟨hpath, hrest⟩ := List.forall_mem_cons.mp hpaths
      rw [recordsAt]
      dsimp only
      rcases List.mem_cons.mp hplace with rfl | hplace
      · rw [recordAt_of_get? hkept]
        exact List.mem_append_left _ (Option.mem_toList.mpr rfl)
      · exact List.mem_append_right _ (ih hrest hplace (get?_recordAt hpath hkept))

/-! ## Operations -/

variable {d : Documenter}

/-- The records that an operation returns. -/
def returned (d : Documenter) (fs : FileSystem) : Operation → List ComponentRecord
  | .document path => ((d.document fs (Path.ofString path)).toOption.bind Prod.fst).toList
  | .documentBelow directory =>
    ((d.documentBelow fs (directory.map Path.ofString)).toOption.map Prod.fst).getD []
  | _ => []

/-- The canonical paths of the components whose records an operation asks for. -/
def requested (d : Documenter) (fs : FileSystem) : Operation → List Path
  | .document path => (fs.canonical (Path.ofString path)).toOption.toList
  | .documentBelow directory =>
    ((d.componentFiles fs (directory.map Path.ofString)).toOption.getD []).filterMap fun path =>
      (fs.canonical path).toOption
  | _ => []

/-- **A record that is returned is kept from then on, under one of the paths that were asked
for.** -/
theorem exists_of_mem_returned {fs : FileSystem} {operation : Operation} {record : ComponentRecord}
    (hrecord : record ∈ d.returned fs operation) :
    ∃ place ∈ d.requested fs operation,
      (d.perform fs operation).state.store.get? place.toString = some record := by
  cases operation with
  | document path =>
      rw [returned, document_eq] at hrecord
      rw [requested, perform, document_eq]
      cases hplace : fs.canonical (Path.ofString path) with
      | error e => simp [hplace, Except.map, Except.toOption] at hrecord
      | ok place =>
          rw [hplace] at hrecord
          refine ⟨place, List.mem_singleton.mpr rfl, ?_⟩
          exact get?_of_recordAt (FileSystem.settled_of_canonical hplace)
            (Option.mem_toList.mp hrecord)
  | documentBelow directory =>
      cases hdone : d.documentBelow fs (directory.map Path.ofString) with
      | error e => simp [returned, hdone, Except.toOption] at hrecord
      | ok result =>
          obtain ⟨records, after⟩ := result
          obtain ⟨listed, paths, hlisted, hpaths, hrecords, hafter⟩ := exists_of_documentBelow hdone
          have hsettled : ∀ p ∈ paths, p.Settled := settled_of_map_canonical hpaths
          have hreturned : record ∈ (recordsAt d.setup fs paths d.state).1 := by
            rw [returned, hdone] at hrecord
            have hsorted : record ∈ records := hrecord
            rw [hrecords] at hsorted
            exact List.mem_mergeSort.mp hsorted
          obtain ⟨p, hp, hkept⟩ := exists_of_mem_recordsAt hsettled hreturned
          obtain ⟨given, hgiven, hplace⟩ := exists_of_map_eq_map_ok hpaths hp
          refine ⟨p, ?_, ?_⟩
          · rw [requested, hlisted]
            exact List.mem_filterMap.mpr ⟨given, hgiven, by rw [hplace]; rfl⟩
          · rw [perform, hdone, hafter]
            exact hkept
  | isStale path => exact absurd hrecord List.not_mem_nil
  | invalidate => exact absurd hrecord List.not_mem_nil
  | clear => exact absurd hrecord List.not_mem_nil
  | dispose => exact absurd hrecord List.not_mem_nil

/-- **Every operation keeps the kept records sound.** -/
theorem sound_perform (disk : Disk) (hdirectory : d.setup.componentsDirectory.WellFormed)
    (hd : d.state.Sound) (operation : Operation) :
    (d.perform disk.toFileSystem operation).state.Sound := by
  rcases perform_cases disk hdirectory operation with ⟨paths, hpaths, hperform⟩ | hforgets
  · rw [hperform]
    exact recordsAt_preserves (motive := DocumenterState.Sound)
      (fun p hp state hstate => sound_recordAt (hpaths p hp).1 hstate) hd
  · exact fun entry hentry => hd entry (hforgets.entries hentry)

end Documenter

/-! ## All histories -/

open Documenter

theorem Session.sound_run {c : Configuration} {s : Session} (hs : Follows c s.documenter)
    (hsound : s.documenter.state.Sound) (history : List Event) :
    (s.run history).documenter.state.Sound :=
  Session.run_preserves (fun _ _ hpath _ _ hstate => sound_recordAt hpath hstate)
    (fun _ _ hforgets hd entry hentry => hd entry (hforgets.entries hentry)) hs hsound history

/-- **Whatever happens, every record that is kept or returned is well made.**  A kept record bears
the path that it is kept under, a canonical one; a returned record bears a path that was asked for,
and from then on it is the one that is kept under this path. -/
theorem Configuration.records_wellMade (c : Configuration) (disk : Disk) (history : List Event) :
    let s := c.session disk history
    (∀ entry ∈ s.documenter.state.store.entries, entry.record.WellMade ∧
      entry.record.filePath = entry.key ∧
        ∃ place : Path, place.Settled ∧ entry.key = place.toString) ∧
    ∀ operation, ∀ record ∈ s.documenter.returned s.disk.toFileSystem operation,
      record.WellMade ∧
      (∃ place ∈ s.documenter.requested s.disk.toFileSystem operation,
        record.filePath = place.toString) ∧
      (s.documenter.perform s.disk.toFileSystem operation).state.store.get? record.filePath =
        some record := by
  intro s
  have hfollows : Follows c s.documenter := c.follows_session disk history
  have hempty : c.documenter.state.Sound := fun _ hentry => absurd hentry List.not_mem_nil
  have hsound : s.documenter.state.Sound :=
    Session.sound_run (s := ⟨c.documenter, disk⟩) ⟨rfl, rfl, rfl⟩ hempty history
  refine ⟨fun entry hentry => ?_, fun operation record hrecord => ?_⟩
  · exact ⟨(hsound entry hentry).wellMade, (hsound entry hentry).filePath_eq,
      (hsound entry hentry).exists_place⟩
  · have hdirectory : s.documenter.setup.componentsDirectory.WellFormed :=
      hfollows.setup_eq ▸ c.directory_wellFormed
    obtain ⟨place, hplace, hkept⟩ := exists_of_mem_returned hrecord
    have hafter := sound_perform s.disk hdirectory hsound operation
    obtain ⟨hwellMade, hfilePath⟩ := hafter.of_get? hkept
    exact ⟨hwellMade, ⟨place, hplace, hfilePath⟩, hfilePath ▸ hkept⟩

/-- A component with an override file that states another path, a category that does not exist, a
name twice, and that an optional property is required. -/
def contraryDisk : Disk :=
  (Disk.holding "T.ts" "interface TProps\x7bz?:Z;a?:A;m:M\x7d").write "T.docs.py"
    (Text.bytesOf ("DOCS=\x7b\"filePath\":\"/x\",\"Category\":\"Pages\",\"props\":[\x7b\"name\":\"z\"," ++
      "\"required\":True\x7d,\x7b\"name\":\"c\"\x7d,\x7b\"name\":\"c\"\x7d]\x7d")) 0

/-- Its record is well made all the same. -/
theorem contrary_wellMade :
    let s := (Configuration.plain {}).session contraryDisk []
    ∃ record ∈ s.documenter.returned s.disk.toFileSystem (.document "T.ts"),
      record.WellMade ∧ record.filePath = "/T.ts" ∧ record.category = defaultCategory := by
  intro s
  have hfacts : (s.documenter.returned s.disk.toFileSystem (.document "T.ts")).map (fun record =>
      (record.filePath, record.category)) = [("/T.ts", defaultCategory)] := by
    decide +kernel
  have hone : ("/T.ts", defaultCategory) ∈
      (s.documenter.returned s.disk.toFileSystem (.document "T.ts")).map fun record =>
        (record.filePath, record.category) :=
    hfacts ▸ List.mem_singleton.mpr rfl
  obtain ⟨record, hrecord, hfact⟩ := List.mem_map.mp hone
  obtain ⟨hpath, hcategory⟩ := Prod.mk.inj hfact
  obtain ⟨hwellMade, -⟩ :=
    ((Configuration.plain {}).records_wellMade contraryDisk []).2 (.document "T.ts") record hrecord
  exact ⟨record, hrecord, hwellMade, hpath, hcategory⟩

end ComponentDocs
