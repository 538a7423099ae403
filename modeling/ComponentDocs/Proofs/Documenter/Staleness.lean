import ComponentDocs.Proofs.Documenter.Fingerprints
import ComponentDocs.Proofs.Documenter.History

/-!
# Stale records

A record counts as stale when the fingerprint of its component has changed.  Apart from its date a
record is a function of the curated fields and of the extracted properties (`contents`), and the
fingerprint covers these in part only: not the files of base types, and not where the files that it
does cover begin and end.  `eq_iff_of_not_stale` says which records that are not stale would be made
again as they are; what has to stay besides the fingerprint is the layout of the files and, with
inherited properties, every base that is found.
-/

namespace ComponentDocs

open Source Project Extraction

/-- The record without its date. -/
def ComponentRecord.undated (r : ComponentRecord) : ComponentRecord :=
  { r with lastModified := none }

namespace Documenter

variable {setup : DocumenterSetup} {fs gs : FileSystem} {path : Path}

/-! ## What a record holds -/

/-- The base record of a component without its date. -/
def undatedBase (path : Path) (extracted : List Property) : ComponentRecord where
  id := Text.lowered path.stem
  name := Naming.pascalCase path.stem
  description := stockDescription (Naming.pascalCase path.stem)
  category := Category.ofPath path
  filePath := path.toString
  properties := sortProperties extracted

/-- What a new documenter puts into the record of a component, apart from the date. -/
def contents (c : Configuration) (fs : FileSystem) (path : Path) : Option ComponentRecord :=
  (curatedFor fs path c.setup.formats).1.toOption.map fun curated =>
    (curated.apply (undatedBase path
      (propertiesAt c.setup fs path c.documenter.state.project))).undated

/-- The properties that a new documenter lists for a component. -/
def listing (c : Configuration) (fs : FileSystem) (path : Path) : List Property :=
  mergedProperties c.setup fs path (propertiesAt c.setup fs path c.documenter.state.project)

/-- With the same curated fields, contents differ in the properties that are listed or not at
all. -/
theorem contents_eq_iff {c : Configuration}
    (hsame : curatedFor fs path c.setup.formats = curatedFor gs path c.setup.formats)
    (hcurated : ∃ curated, (curatedFor fs path c.setup.formats).1 = .ok curated) :
    contents c gs path = contents c fs path ↔ listing c gs path = listing c fs path := by
  obtain ⟨curated, hcurated⟩ := hcurated
  have hcurated' := hcurated
  rw [hsame] at hcurated'
  simp only [contents, listing, mergedProperties, hcurated, hcurated', Except.toOption,
    Option.map_some, Option.some.injEq]
  constructor
  · intro h
    injection h
  · intro h
    simp only [Curated.apply, undatedBase, ComponentRecord.undated, h]

theorem recordFrom_eq (setup : DocumenterSetup) (fs : FileSystem) (path : Path)
    (extracted : List Property) :
    recordFrom setup fs path extracted = do
      let curated ← (curatedFor fs path setup.formats).1
      let time ← BaseRecord.changeTime fs path
      return (curated.apply { undatedBase path extracted with lastModified := time },
        ← fingerprint setup fs path) := by
  unfold recordFrom BaseRecord.build
  cases (curatedFor fs path setup.formats).1 with
  | error e => rfl
  | ok curated => cases BaseRecord.changeTime fs path <;> rfl

/-- What is known of a record that was made. -/
theorem recordFrom_eq_ok {extracted : List Property} {record : ComponentRecord}
    {print : Fingerprint} (hmade : recordFrom setup fs path extracted = .ok (record, print)) :
    ∃ curated, (curatedFor fs path setup.formats).1 = .ok curated ∧
      record.undated = (curated.apply (undatedBase path extracted)).undated ∧
      fingerprint setup fs path = .ok print := by
  rw [recordFrom_eq] at hmade
  cases hcurated : (curatedFor fs path setup.formats).1 with
  | error e => simp [hcurated, bind, Except.bind] at hmade
  | ok curated =>
      cases htime : BaseRecord.changeTime fs path with
      | error e => simp [hcurated, htime, bind, Except.bind] at hmade
      | ok time =>
          cases hprint : fingerprint setup fs path with
          | error e => simp [hcurated, htime, hprint, bind, Except.bind] at hmade
          | ok bytes =>
              simp only [hcurated, htime, hprint, bind, Except.bind, pure, Except.pure,
                Except.ok.injEq, Prod.mk.injEq] at hmade
              exact ⟨curated, rfl, hmade.1 ▸ rfl, congrArg _ hmade.2⟩

/-! ## Bases that are found where they were -/

/-- Whether the first declaration names the second one among its bases. -/
def BuildsOn (P : Project) (fs : FileSystem) (n m : Node) : Prop :=
  ∃ base ∈ n.2.bases, resolution P fs n.1 base = .ok (some m)

/-- With inherited properties, every base of every declaration that the props of a component build
on is found where it was, in a file of the same bytes. -/
def SameBases (c : Configuration) (fs gs : FileSystem) (path : Path) : Prop :=
  c.setup.selection.inheritedProperties = true →
    ∀ root : Node, propsNode? fs c.documenter.state.project path = some root →
      ∀ n, Relation.ReflTransGen (BuildsOn c.documenter.state.project fs) root n →
        ∀ base ∈ n.2.bases, resolution c.documenter.state.project fs n.1 base =
          resolution c.documenter.state.project gs n.1 base

/-- Declarations all of whose bases are found where they were can be walked as before. -/
theorem agree_of_resolution_eq {P : Project} {root : Node} (hleft : Shown P fs root)
    (hright : Shown P gs root)
    (hsame : ∀ n, Relation.ReflTransGen (BuildsOn P fs) root n → ∀ base ∈ n.2.bases,
      resolution P fs n.1 base = resolution P gs n.1 base) :
    Agree (Relation.ReflTransGen (BuildsOn P fs) root) P fs P gs where
  shown_left n hn := by
    induction hn with
    | refl => exact hleft
    | tail _ hstep ih =>
        obtain ⟨base, _, hbase⟩ := hstep
        exact ih.toShownFile.shown_of_resolution hbase
  shown_right n hn := by
    induction hn with
    | refl => exact hright
    | tail hn hstep ih =>
        obtain ⟨base, hmem, hbase⟩ := hstep
        rw [hsame _ hn base hmem] at hbase
        exact ih.toShownFile.shown_of_resolution hbase
  resolution_eq := hsame
  closed n hn base hbase m hm := hn.tail ⟨base, hbase, hm⟩

/-- The same properties are extracted from a source file of the same bytes if the bases stay. -/
theorem propertiesAt_eq_of_sameBases {c : Configuration} (hpath : path.Settled)
    (hbytes : bytesAt fs path = bytesAt gs path) (hbases : SameBases c fs gs path) :
    propertiesAt c.setup fs path c.documenter.state.project =
      propertiesAt c.setup gs path c.documenter.state.project := by
  have hnone : c.documenter.state.project.file? path = none := rfl
  have hfile : (c.documenter.state.project.fileAt fs path).toOption =
      (c.documenter.state.project.fileAt gs path).toOption := by
    unfold bytesAt at hbytes
    unfold fileAt
    cases hleft : fs.read path <;> cases hright : gs.read path <;>
      simp_all [Except.toOption]
  refine properties_lockstep hpath hfile fun hinherited root hroot => ?_
  obtain ⟨place, hplace, hrootFile, -, hshown⟩ := shown_of_propsNode? hroot
  obtain rfl : path = place := by
    rw [FileSystem.canonical_of_settled hpath] at hplace
    exact Except.ok.inj hplace
  have hshown' : Shown c.documenter.state.project gs root := {
    hshown with
    fileAt_eq := by
      rw [path_of_fileAt hrootFile]
      rw [hrootFile] at hfile
      cases hright : c.documenter.state.project.fileAt gs path <;>
        simp_all [Except.toOption] }
  exact ⟨_, agree_of_resolution_eq hshown hshown' (hbases hinherited root hroot), .refl⟩

/-! ## What a fingerprint covers -/

/-- A record that a new documenter has made, and what it keeps of it. -/
theorem new_documenter_made {c : Configuration} {place : Path} {record : ComponentRecord}
    {d : Documenter} (hplace : fs.canonical path = .ok place)
    (hmade : c.documenter.document fs path = .ok (some record, d)) :
    ∃ print, recordFrom c.setup fs place
        (propertiesAt c.setup fs place c.documenter.state.project) = .ok (record, print) ∧
      d.setup = c.setup ∧ d.state.store.find? place.toString =
        some ⟨place.toString, record, print⟩ := by
  have hsettled := FileSystem.settled_of_canonical hplace
  obtain ⟨read, -, hstore, hreply⟩ :=
    recordAt_of_get?_eq_none hsettled (rfl : c.documenter.state.store.get? place.toString = none)
  rw [document_eq, hplace, Except.map, Except.ok.injEq, Prod.mk.injEq] at hmade
  obtain ⟨hrecord, rfl⟩ := hmade
  have hsetup : c.documenter.setup = c.setup := rfl
  rw [hsetup, hreply] at hrecord
  rw [hsetup, hreply]
  cases hfrom : recordFrom c.setup fs place
      (propertiesAt c.setup fs place c.documenter.state.project) with
  | error e =>
      rw [hfrom] at hrecord
      cases hrecord
  | ok made =>
      rw [hfrom] at hrecord
      cases hrecord
      refine ⟨made.2, rfl, rfl, ?_⟩
      dsimp only
      rw [hstore]
      simp [RecordStore.find?, RecordStore.insert, RecordStore.contains, Configuration.documenter]

end Documenter

open Documenter

/-- **Which records that are not stale are made again as they are.**  A record that a new
documenter has made is not stale on changed files.  Then a new documenter makes it again, but for
its date, exactly if the file has a date and the contents stay.  If the layout of the files stays,
they do exactly if the same properties are listed, and so in particular if the bases stay. -/
theorem eq_iff_of_not_stale (c : Configuration) (before after : Disk) (path : String)
    (place : Path) (hplace : before.canonical (Path.ofString path) = .ok place)
    (hplace' : after.canonical (Path.ofString path) = .ok place)
    (record : ComponentRecord) (d : Documenter)
    (hmade : c.documenter.document before.toFileSystem (Path.ofString path) =
      .ok (some record, d))
    (hnotStale : d.isStale after.toFileSystem (Path.ofString path) = .ok false) :
    ((∃ again, (c.documenter.document after.toFileSystem (Path.ofString path)).map Prod.fst =
          .ok (some again) ∧ again.undated = record.undated) ↔
      (∃ time, BaseRecord.changeTime after.toFileSystem place = .ok time) ∧
        contents c after.toFileSystem place = contents c before.toFileSystem place) ∧
    (SameLayout c.setup before.toFileSystem after.toFileSystem place →
      (contents c after.toFileSystem place = contents c before.toFileSystem place ↔
        listing c after.toFileSystem place = listing c before.toFileSystem place) ∧
      (SameBases c before.toFileSystem after.toFileSystem place →
        contents c after.toFileSystem place = contents c before.toFileSystem place)) := by
  have hsettled := FileSystem.settled_of_canonical hplace
  obtain ⟨print, hmade, hsetup, hentry⟩ := new_documenter_made hplace hmade
  obtain ⟨curated, hcurated, hrecord, hprint⟩ := recordFrom_eq_ok hmade
  have hprint' : fingerprint c.setup after.toFileSystem place = .ok print := by
    rw [isStale, hplace'] at hnotStale
    cases hother : fingerprint d.setup after.toFileSystem place with
    | error e => simp [hother, bind, Except.bind] at hnotStale
    | ok other =>
        simp only [hother, bind, Except.bind, pure, Except.pure, RecordStore.isStale, hentry,
          Except.ok.injEq, bne_eq_false_iff_eq] at hnotStale
        rw [← hsetup, hother, hnotStale]
  -- with a fingerprint the override files could be looked for, so curated fields there are
  have hcurated' : ∃ curated', (curatedFor after.toFileSystem place c.setup.formats).1 =
      .ok curated' := by
    obtain ⟨found, hfound, -⟩ := exists_of_fingerprint hprint'
    refine exists_curatedFor fun format hformat => ?_
    have hok : format.path? after.toFileSystem place ∈ found.map .ok :=
      hfound ▸ List.mem_map.mpr ⟨format, hformat, rfl⟩
    obtain ⟨p, -, hp⟩ := List.mem_map.mp hok
    exact ⟨p, hp.symm⟩
  obtain ⟨curated', hcurated'⟩ := hcurated'
  have hbefore : contents c before.toFileSystem place = some record.undated := by
    rw [contents, hcurated, hrecord]
    rfl
  constructor
  · have hafter : contents c after.toFileSystem place = some (curated'.apply (undatedBase place
        (propertiesAt c.setup after.toFileSystem place c.documenter.state.project))).undated := by
      rw [contents, hcurated']
      rfl
    have hagain : (c.documenter.document after.toFileSystem (Path.ofString path)).map Prod.fst =
        .ok ((recordFrom c.setup after.toFileSystem place (propertiesAt c.setup after.toFileSystem
          place c.documenter.state.project)).toOption.map Prod.fst) := by
      rw [document_eq, hplace']
      exact congrArg Except.ok (recordAt_fst_of_get?_eq_none hsettled rfl)
    rw [hbefore, hafter, hagain, recordFrom_eq, hcurated', hprint', Option.some.injEq]
    cases BaseRecord.changeTime after.toFileSystem place with
    | error e => simp [bind, Except.bind, Except.toOption]
    | ok time => simp [bind, Except.bind, pure, Except.pure, Except.toOption,
        ComponentRecord.undated, Curated.apply]
  · intro hlayout
    obtain ⟨hsource, hoverrides⟩ := hlayout.bytesAt_eq hprint hprint'
    have hsame := contents_eq_iff (curatedFor_congr hlayout.found_eq hoverrides)
      ⟨curated, hcurated⟩
    refine ⟨hsame, fun hbases => hsame.mpr ?_⟩
    rw [listing, listing, propertiesAt_eq_of_sameBases hsettled hsource hbases, mergedProperties,
      mergedProperties, curatedFor_congr hlayout.found_eq hoverrides]

/-- The layout matters: an override file goes, its path and bytes appear at the end of the source
file, and the record with the curated description does not count as stale. -/
example :
    let c := Configuration.plain {}
    let path := Path.ofString "T.ts"
    let source := "interface TProps\x7ba:A\x7d//"
    let curated := "DOCS=\x7b\"description\":\"d\"\x7d"
    let before := (Disk.holding "T.ts" source).write "T.docs.py" (Text.bytesOf curated) 0
    let after := Disk.holding "T.ts" (source ++ "/T.docs.py" ++ curated)
    let s := c.session before [.call (.document "T.ts")]
    (s.documenter.isStale after.toFileSystem path).toOption = some false ∧
    ((c.documenter.document before.toFileSystem path).toOption.bind Prod.fst).map
      ComponentRecord.description = some "d" ∧
    ((c.documenter.document after.toFileSystem path).toOption.bind Prod.fst).map
      ComponentRecord.description = some "T component" := by
  decide +kernel

/-- A file that is written again with the same bytes leaves the record as it is. -/
theorem eq_of_rewritten :
    let c := Configuration.plain {}
    let path := Path.ofString "T.ts"
    let before := Disk.holding "T.ts" "interface TProps\x7ba:A\x7d"
    let after := before.write "T.ts" (Text.bytesOf "interface TProps\x7ba:A\x7d") 1000000000
    ∃ record d again, c.documenter.document before.toFileSystem path = .ok (some record, d) ∧
      d.isStale after.toFileSystem path = .ok false ∧
      (c.documenter.document after.toFileSystem path).map Prod.fst = .ok (some again) ∧
      again.undated = record.undated := by
  intro c path before after
  have hfacts :
      (c.documenter.document before.toFileSystem path).toOption.map (fun made =>
        (made.1.isSome, (made.2.isStale after.toFileSystem path).toOption)) =
          some (true, some false) ∧
      (BaseRecord.changeTime after.toFileSystem ⟨.root, ["T.ts"]⟩).toOption.isSome ∧
      (∀ format ∈ c.setup.formats,
        format.path? before.toFileSystem ⟨.root, ["T.ts"]⟩ = .ok none ∧
        format.path? after.toFileSystem ⟨.root, ["T.ts"]⟩ = .ok none) ∧
      (bytesAt before.toFileSystem ⟨.root, ["T.ts"]⟩).map List.length =
        (bytesAt after.toFileSystem ⟨.root, ["T.ts"]⟩).map List.length := by
    decide +kernel
  obtain ⟨hmade, htime, hfound, hlength⟩ := hfacts
  have hplace : before.canonical (Path.ofString "T.ts") = .ok ⟨.root, ["T.ts"]⟩ := rfl
  have hplace' : after.canonical (Path.ofString "T.ts") = .ok ⟨.root, ["T.ts"]⟩ := rfl
  have hdirect : c.setup.selection.inheritedProperties = false := rfl
  -- from here on nothing may unfold the concrete files
  clear_value c before after
  obtain ⟨record, d, hdocument, hnotStale⟩ : ∃ record d,
      c.documenter.document before.toFileSystem path = .ok (some record, d) ∧
        d.isStale after.toFileSystem path = .ok false := by
    cases hdocument : c.documenter.document before.toFileSystem path with
    | error e => simp [hdocument, Except.toOption] at hmade
    | ok made =>
        obtain ⟨record, d⟩ := made
        cases record with
        | none => simp [hdocument, Except.toOption] at hmade
        | some record =>
            refine ⟨record, d, rfl, ?_⟩
            cases hstale : d.isStale after.toFileSystem path <;>
              simp_all [Except.toOption]
  have hlayout : SameLayout c.setup before.toFileSystem after.toFileSystem ⟨.root, ["T.ts"]⟩ := {
    found_eq := fun format hformat => (hfound format hformat).1.trans (hfound format hformat).2.symm
    source_length := hlength
    override_length := fun format hformat p hp => by
      rw [(hfound format hformat).1] at hp
      cases hp }
  have hbases : SameBases c before.toFileSystem after.toFileSystem ⟨.root, ["T.ts"]⟩ := by
    intro hinherited
    rw [hdirect] at hinherited
    cases hinherited
  obtain ⟨hexact, hstays⟩ := eq_iff_of_not_stale c before after "T.ts" ⟨.root, ["T.ts"]⟩ hplace
    hplace' record d hdocument hnotStale
  have htime : ∃ time, BaseRecord.changeTime after.toFileSystem ⟨.root, ["T.ts"]⟩ = .ok time := by
    cases hchange : BaseRecord.changeTime after.toFileSystem ⟨.root, ["T.ts"]⟩ with
    | error e => simp [hchange, Except.toOption] at htime
    | ok time => exact ⟨time, rfl⟩
  obtain ⟨again, hagain, hsame⟩ := hexact.mpr ⟨htime, (hstays hlayout).2 hbases⟩
  exact ⟨record, d, again, hdocument, hnotStale, hagain, hsame⟩

/-! ## Changes that go unnoticed -/

/-- A base type changes, and with it what a new documenter lists; the record does not count as
stale. -/
theorem base_change_not_stale :
    let c := Configuration.plain { inheritedProperties := true }
    let path := Path.ofString "T.ts"
    let before := (Disk.holding "T.ts"
      "import\x7bB\x7dfrom\"./B\"\ninterface TProps extends B\x7b\x7d").write "B.ts"
        (Text.bytesOf "export interface B\x7bb:C\x7d") 0
    let after := before.write "B.ts" (Text.bytesOf "export interface B\x7bc:C\x7d") 0
    let s := c.session before [.call (.document "T.ts")]
    (s.documenter.isStale after.toFileSystem path).toOption = some false ∧
    replyNames (c.documenter.document before.toFileSystem path) = some ["b"] ∧
    replyNames (c.documenter.document after.toFileSystem path) = some ["c"] := by
  decide +kernel

end ComponentDocs
