import ComponentDocs.Proofs.Curated.FirstOverride
import ComponentDocs.Proofs.Documenter.Batch
import ComponentDocs.Proofs.Documenter.Staleness
import ComponentDocs.Proofs.Files.Agreement

/-!
# Which override file counts

Of the override files that a component may have, no other one than the first has a say in its
record.  If that one cannot be loaded, the record is the one without any override file, be there
others behind it or not.

Two file systems that agree apart from override files are compared.  A new documenter reads the
component there, the first override file, and the sources of the types that the props build on; so
it takes that none of these imports a place where an override file may be (`NotImported`).  Then the
bases of the props are found where they were (`sameBases_of_agreeApart`), and the rest of the record
is a function of the component's own file and of what is curated.
-/

namespace ComponentDocs

open Source Project Extraction FileSystem

/-! ## Modules in files that agree -/

section Modules

variable {fs gs : FileSystem} {apart : List Path} {P : Project}

private theorem firstFile_eq (hagree : AgreeApart apart fs gs) {paths : List Path}
    (hpaths : ∀ p ∈ paths, fs.PassesBy apart p) : gs.firstFile paths = fs.firstFile paths := by
  induction paths with
  | nil => rfl
  | cons path rest ih =>
      obtain ⟨hpath, hrest⟩ := List.forall_mem_cons.mp hpaths
      rw [firstFile, firstFile, hagree.isFile_eq hpath, ih hrest]

/-- Whether all places where a module is looked for pass by some paths. -/
def ModulePassesBy (P : Project) (fs : FileSystem) (apart : List Path) (importer : ParsedFile)
    (specifier : String) : Prop :=
  ∀ stem ∈ P.moduleStems importer specifier, ∀ paths, candidates stem = .ok paths →
    ∀ p ∈ paths, fs.PassesBy apart p

private theorem firstModule_eq (hagree : AgreeApart apart fs gs) {stems : List Path}
    (hstems : ∀ stem ∈ stems, ∀ paths, candidates stem = .ok paths →
      ∀ p ∈ paths, fs.PassesBy apart p) :
    firstModule gs stems = firstModule fs stems ∧
      ∀ path, firstModule fs stems = .ok (some path) → fs.PassesBy apart path := by
  induction stems with
  | nil => exact ⟨rfl, fun path hpath => by cases hpath⟩
  | cons stem rest ih =>
      obtain ⟨hstem, hrest⟩ := List.forall_mem_cons.mp hstems
      obtain ⟨hsame, hfound⟩ := ih hrest
      simp only [firstModule, bind, Except.bind]
      cases hcandidates : candidates stem with
      | error e => exact ⟨rfl, fun path hpath => by cases hpath⟩
      | ok paths =>
          have hpaths := hstem paths hcandidates
          dsimp only
          rw [firstFile_eq hagree hpaths]
          cases hfirst : fs.firstFile paths with
          | error e => exact ⟨rfl, fun path hpath => by cases hpath⟩
          | ok first =>
              cases first with
              | none => exact ⟨hsame, hfound⟩
              | some candidate =>
                  dsimp only
                  rw [hagree.resolve_eq]
                  refine ⟨rfl, fun path hpath => ?_⟩
                  cases hpath
                  exact (hpaths candidate (of_firstFile_eq_some hfirst).1).resolve

private theorem fileAt_eq (hagree : AgreeApart apart fs gs) {path : Path}
    (hpath : fs.PassesBy apart path) : P.fileAt gs path = P.fileAt fs path := by
  unfold fileAt
  rw [hagree.read_eq hpath]

/-- A base stands for the same in both file systems if its module passes by where they differ. -/
theorem resolution_eq_of_agreeApart (hagree : AgreeApart apart fs gs) (file : ParsedFile)
    (himports : ∀ name specifier exported, file.import? name = some (specifier, exported) →
      ModulePassesBy P fs apart file specifier) (base : BaseType) :
    resolution P gs file base = resolution P fs file base := by
  unfold resolution
  cases base with
  | qualifiedGeneric => rfl
  | qualified text => rfl
  | named name =>
      dsimp only
      cases file.declaration? name with
      | some declaration => rfl
      | none =>
          cases himport : file.import? name with
          | none => rfl
          | some source =>
              obtain ⟨hsame, hfound⟩ :=
                firstModule_eq hagree (himports name source.1 source.2 himport)
              dsimp only
              unfold resolutionOfImport moduleFor?
              rw [hsame]
              cases hmodule : firstModule fs (P.moduleStems file source.1) with
              | error e => rfl
              | ok found =>
                  cases found with
                  | none => rfl
                  | some path =>
                      dsimp only
                      rw [fileAt_eq hagree (hfound path hmodule)]

end Modules

namespace Documenter

variable {c : Configuration} {fs gs : FileSystem} {apart : List Path} {component bare : Path}

/-- With inherited properties, no source file that the props of a component build on imports some
paths: no module that one of them imports is looked for at these paths or below them. -/
def NotImported (c : Configuration) (fs : FileSystem) (component : Path) (apart : List Path) :
    Prop :=
  c.setup.selection.inheritedProperties = true →
  ∀ root : Node, propsNode? fs c.documenter.state.project component = some root →
    ∀ n, Relation.ReflTransGen (BuildsOn c.documenter.state.project fs) root n →
      ∀ name specifier exported, n.1.import? name = some (specifier, exported) →
        ModulePassesBy c.documenter.state.project fs apart n.1 specifier

/-- The bases of the props are found where they were. -/
theorem sameBases_of_agreeApart (hagree : AgreeApart apart fs gs)
    (hnot : NotImported c fs component apart) : SameBases c fs gs component :=
  fun hinherited root hroot n hn base _ =>
    (resolution_eq_of_agreeApart hagree n.1 (hnot hinherited root hroot n hn) base).symm

/-! ## Records of files that agree -/

/-- With the same curated fields, a component that lies apart from where the files differ gets the
same record. -/
theorem freshReply_eq_of_agreeApart (hcomponent : component.Settled)
    (hagree : AgreeApart apart fs gs) (hpasses : fs.PassesBy apart component)
    (hnot : NotImported c fs component apart)
    (hcurated : (curatedFor gs component c.setup.formats).1 =
      (curatedFor fs component c.setup.formats).1)
    (hprint : ∃ print, fingerprint c.setup fs component = .ok print)
    (hprint' : ∃ print, fingerprint c.setup gs component = .ok print) :
    freshReply c gs component = freshReply c fs component := by
  have hbytes : bytesAt fs component = bytesAt gs component := by
    rw [bytesAt, bytesAt, hagree.read_eq hpasses]
  have hproperties := propertiesAt_eq_of_sameBases hcomponent hbytes
    (sameBases_of_agreeApart hagree hnot)
  have htime : BaseRecord.changeTime gs component = BaseRecord.changeTime fs component := by
    unfold BaseRecord.changeTime
    rw [hagree.modified?_eq hpasses]
  obtain ⟨print, hprint⟩ := hprint
  obtain ⟨print', hprint'⟩ := hprint'
  rw [freshReply, freshReply, recordAt_fst_of_get?_eq_none hcomponent rfl,
    recordAt_fst_of_get?_eq_none hcomponent rfl, ← hproperties, recordFrom_eq, recordFrom_eq,
    hcurated, htime, hprint, hprint']
  cases (curatedFor fs component c.setup.formats).1 with
  | error e => rfl
  | ok curated => cases BaseRecord.changeTime fs component <;> rfl

end Documenter

open Documenter

/-- The paths of all candidates but the one that counts. -/
def otherCandidates (fs : FileSystem) (candidates : List (OverrideFormat × Path)) : List Path :=
  (candidates.map Prod.snd).filter fun path =>
    (firstOverride fs candidates).map Prod.snd ≠ some path

section Candidates

variable {c : Configuration} {fs gs : FileSystem} {formats : List OverrideFormat}
  {component bare : Path}

/-- A component passes by its candidates, and so does its directory. -/
theorem passesBy_overrideCandidates (hbare : OverrideFormat.base component = .ok bare)
    (hcomponent : component.Settled) {apart : List Path}
    (hsubset : apart ⊆ (overrideCandidates bare formats).map Prod.snd) {p : Path}
    (hp : p.Settled) (habove : p.segments <+: component.segments) : fs.PassesBy apart p := by
  refine passesBy_of_settled hp fun q hq hbelow => ?_
  obtain ⟨candidate, hcandidate, rfl⟩ := List.mem_map.mp (hsubset hq)
  rw [resolve_of_settled (settled_of_mem_overrideCandidates hbare hcomponent hcandidate)]
    at hbelow
  exact not_prefix_component hbare hcandidate (hbelow.trans habove)

/-- On files that agree apart from candidates, all of these can still be looked up. -/
theorem WithinLimits.of_agreeApart (hbare : OverrideFormat.base component = .ok bare)
    (hcomponent : component.Settled) {apart : List Path}
    (hsubset : apart ⊆ (overrideCandidates bare formats).map Prod.snd)
    (hagree : AgreeApart apart fs gs)
    (hlimits : WithinLimits fs (overrideCandidates bare formats)) :
    WithinLimits gs (overrideCandidates bare formats) := by
  intro candidate hcandidate
  have hsettled := settled_of_mem_overrideCandidates hbare hcomponent hcandidate
  have hanswer := hlimits candidate hcandidate
  obtain ⟨-, name, -, -, hpath⟩ := exists_of_mem_overrideCandidates hbare hcandidate
  have hchild : candidate.2 = component.parent.child name := hpath
  have hparent : component.parent.Settled :=
    ⟨hcomponent.anchor_eq, fun hdots => hcomponent.no_dots (List.dropLast_subset _ hdots)⟩
  have hpasses : fs.PassesBy apart component.parent :=
    passesBy_overrideCandidates hbare hcomponent hsubset hparent (List.dropLast_prefix _)
  rw [hchild] at hsettled hanswer ⊢
  exact hagree.exists_isFile hpasses hsettled hanswer

theorem passesBy_otherCandidates (hbare : OverrideFormat.base component = .ok bare)
    (hcomponent : component.Settled) {counting : OverrideFormat × Path}
    (hfirst : firstOverride fs (overrideCandidates bare formats) = some counting) :
    fs.PassesBy (otherCandidates fs (overrideCandidates bare formats)) counting.2 := by
  have hmem : counting ∈ overrideCandidates bare formats := List.mem_of_find?_eq_some hfirst
  refine passesBy_of_settled (settled_of_mem_overrideCandidates hbare hcomponent hmem)
    fun q hq habove => ?_
  obtain ⟨hq, hother⟩ := List.mem_filter.mp hq
  obtain ⟨candidate, hcandidate, rfl⟩ := List.mem_map.mp hq
  have hne : candidate.2 ≠ counting.2 := by
    intro h
    simp [hfirst, h] at hother
  rw [resolve_of_settled (settled_of_mem_overrideCandidates hbare hcomponent hcandidate)]
    at habove
  exact not_prefix_candidate hbare hmem hcandidate hne habove

/-- The file that counts states the same as long as files agree apart from the others. -/
theorem curatedFrom_eq_of_agreeApart (hbare : OverrideFormat.base component = .ok bare)
    (hcomponent : component.Settled)
    (hagree : AgreeApart (otherCandidates fs (overrideCandidates bare formats)) fs gs) :
    curatedFrom gs component (firstOverride fs (overrideCandidates bare formats)) =
      curatedFrom fs component (firstOverride fs (overrideCandidates bare formats)) := by
  cases hfirst : firstOverride fs (overrideCandidates bare formats) with
  | none => rfl
  | some counting =>
      have hbytes : bytesAt gs counting.2 = bytesAt fs counting.2 := by
        rw [bytesAt, bytesAt, hagree.read_eq (passesBy_otherCandidates hbare hcomponent hfirst)]
      rw [curatedFrom, curatedFrom, loadFile_congr counting.1 hbytes]

/-- A new documenter replies the same on files that agree apart from candidates, if these state the
same. -/
theorem document_eq_of_curatedFrom_eq {apart : List Path} {given : Path}
    (hbare : OverrideFormat.base component = .ok bare)
    (hgiven : fs.canonical given = .ok component)
    (hlimits : WithinLimits fs (overrideCandidates bare c.setup.formats))
    (hsubset : apart ⊆ (overrideCandidates bare c.setup.formats).map Prod.snd)
    (hagree : AgreeApart apart fs gs) (hnot : NotImported c fs component apart)
    (hsame : (curatedFrom gs component
        (firstOverride gs (overrideCandidates bare c.setup.formats))).1 =
      (curatedFrom fs component
        (firstOverride fs (overrideCandidates bare c.setup.formats))).1) :
    (c.documenter.document gs given).map Prod.fst =
      (c.documenter.document fs given).map Prod.fst := by
  have hcomponent : component.Settled := settled_of_canonical hgiven
  have hlimits' := hlimits.of_agreeApart hbare hcomponent hsubset hagree
  have hcurated : (curatedFor gs component c.setup.formats).1 =
      (curatedFor fs component c.setup.formats).1 := by
    rw [curatedFor_eq_curatedFrom hbare hlimits', curatedFor_eq_curatedFrom hbare hlimits, hsame]
  have hfresh := freshReply_eq_of_agreeApart hcomponent hagree
    (passesBy_overrideCandidates hbare hcomponent hsubset hcomponent (List.prefix_refl _)) hnot hcurated
    (exists_fingerprint (hlimits.exists_path? hbare))
    (exists_fingerprint (hlimits'.exists_path? hbare))
  simp only [document_eq, hagree.canonical_eq, hgiven]
  exact congrArg Except.ok hfresh

end Candidates

/-- **Only the first override file counts.**  Without one nothing is stated and nothing reported.
If it cannot be loaded, nothing is stated, and after what is reported of that file the failure is
reported last; the record is the one without any override file.  And in any case it is the same on
all files that agree apart from the candidates that do not count. -/
theorem Configuration.document_eq_of_firstOverride (c : Configuration) (fs : FileSystem)
    (component bare : Path) (hbare : OverrideFormat.base component = .ok bare)
    (hlimits : WithinLimits fs (overrideCandidates bare c.setup.formats)) :
    let candidates := overrideCandidates bare c.setup.formats
    let loaded := curatedFor fs component c.setup.formats
    let reply (fs : FileSystem) (given : Path) :=
      (c.documenter.document fs given).map Prod.fst
    (firstOverride fs candidates = none → loaded = (.ok {}, [])) ∧
    (∀ format path, firstOverride fs candidates = some (format, path) →
      ∀ e notes, format.loadFile fs path = (.error e, notes) →
        loaded = (.ok {}, notes ++ [⟨component.toString, .warning,
          "Could not load curated docs from " ++ path.toString ++ ": " ++ e.message⟩]) ∧
        (∀ note ∈ notes, note.file = path.toString) ∧
        ∀ gs given, fs.canonical given = .ok component →
          AgreeApart (candidates.map Prod.snd) fs gs →
          NotImported c fs component (candidates.map Prod.snd) →
          firstOverride gs candidates = none → reply gs given = reply fs given) ∧
    (∀ gs given, fs.canonical given = .ok component →
      AgreeApart (otherCandidates fs candidates) fs gs →
      NotImported c fs component (otherCandidates fs candidates) →
      firstOverride gs candidates = firstOverride fs candidates →
        reply gs given = reply fs given) := by
  intro candidates loaded reply
  have hloaded : loaded = (.ok (curatedFrom fs component (firstOverride fs candidates)).1,
      (curatedFrom fs component (firstOverride fs candidates)).2) :=
    curatedFor_eq_curatedFrom hbare hlimits
  refine ⟨?_, ?_, ?_⟩
  · intro hnone
    rw [hloaded, hnone]
    rfl
  · intro format path hfirst e notes hfails
    have hfrom : curatedFrom fs component (firstOverride fs candidates) =
        ({}, notes ++ [⟨component.toString, .warning,
          "Could not load curated docs from " ++ path.toString ++ ": " ++ e.message⟩]) := by
      rw [hfirst, curatedFrom, hfails]
    refine ⟨by rw [hloaded, hfrom], ?_, ?_⟩
    · intro note hnote
      have hmem : note ∈ (format.loadFile fs path).2 := by
        rw [hfails]
        exact hnote
      exact OverrideFormat.file_of_mem_loadFile hmem
    · intro gs given hgiven hagree hnot hnone
      refine document_eq_of_curatedFrom_eq hbare hgiven hlimits (List.Subset.refl _) hagree hnot ?_
      have hnone' : firstOverride gs (overrideCandidates bare c.setup.formats) = none := hnone
      rw [hnone', hfrom]
      rfl
  · intro gs given hgiven hagree hnot hsame
    refine document_eq_of_curatedFrom_eq hbare hgiven hlimits (List.filter_subset_self _) hagree
      hnot ?_
    have hsame' : firstOverride gs (overrideCandidates bare c.setup.formats) =
        firstOverride fs (overrideCandidates bare c.setup.formats) := hsame
    rw [hsame', curatedFrom_eq_of_agreeApart hbare (settled_of_canonical hgiven) hagree]

/-- A component without an override file. -/
def bareDisk : Disk := .holding "T.ts" "interface TProps\x7ba:A\x7d"

/-- The component with an override file that fails after its first field. -/
def brokenDisk : Disk :=
  bareDisk.write "/T.docs.py" (Text.bytesOf "DOCS=\x7b\"description\":\"d\",\"props\":1\x7d") 0

/-- The component with one more override file, which could be loaded. -/
def shadowedDisk : Disk :=
  brokenDisk.write "/T.docs.json" (Text.bytesOf "\x7b\"description\":\"e\"\x7d") 0

/-- The first override file is the one that fails, so the record is the same on all three disks. -/
theorem document_eq_of_brokenOverride :
    let c := Configuration.plain { inheritedProperties := true }
    let component : Path := ⟨.root, ["T.ts"]⟩
    let candidates := overrideCandidates ⟨.root, ["T.docs"]⟩ c.setup.formats
    let reply (fs : FileSystem) := (c.documenter.document fs component).map Prod.fst
    firstOverride shadowedDisk.toFileSystem candidates =
      some (.assignments, ⟨.root, ["T.docs.py"]⟩) ∧
    (OverrideFormat.assignments.loadFile shadowedDisk.toFileSystem ⟨.root, ["T.docs.py"]⟩).1 =
      .error (.curated .propertiesNotList) ∧
    reply bareDisk.toFileSystem = reply shadowedDisk.toFileSystem ∧
    reply brokenDisk.toFileSystem = reply shadowedDisk.toFileSystem := by
  intro c component candidates reply
  have hbare : OverrideFormat.base component = .ok ⟨.root, ["T.docs"]⟩ := by decide +kernel
  have hfacts :
      (∀ candidate ∈ candidates, (shadowedDisk.isFile candidate.2).toOption.isSome) ∧
      firstOverride shadowedDisk.toFileSystem candidates =
        some (.assignments, ⟨.root, ["T.docs.py"]⟩) ∧
      firstOverride brokenDisk.toFileSystem candidates =
        some (.assignments, ⟨.root, ["T.docs.py"]⟩) ∧
      firstOverride bareDisk.toFileSystem candidates = none ∧
      otherCandidates shadowedDisk.toFileSystem candidates =
        [⟨.root, ["T.docs.yml"]⟩, ⟨.root, ["T.docs.yaml"]⟩, ⟨.root, ["T.docs.json"]⟩] ∧
      (propsNode? shadowedDisk.toFileSystem c.documenter.state.project component).map (fun root =>
        (root.2.bases, root.1.importedNames)) = some ([], []) := by
    decide +kernel
  obtain ⟨hfound, hfirst, hfirst', hnone, hothers, hroot⟩ := hfacts
  have hfails : (OverrideFormat.assignments.loadFile shadowedDisk.toFileSystem
      ⟨.root, ["T.docs.py"]⟩).1 = .error (.curated .propertiesNotList) := by
    decide +kernel
  have hlimits : WithinLimits shadowedDisk.toFileSystem candidates := by
    intro candidate hcandidate
    have hsome := hfound candidate hcandidate
    cases hfile : shadowedDisk.isFile candidate.2 with
    | error e => simp [hfile, Except.toOption] at hsome
    | ok answer => exact ⟨answer, rfl⟩
  have hnot (apart : List Path) : NotImported c shadowedDisk.toFileSystem component apart := by
    intro _ root hroot' n hn name specifier exported himport
    rw [hroot', Option.map_some, Option.some.injEq, Prod.mk.injEq] at hroot
    rcases hn.cases_head with rfl | ⟨m, ⟨base, hbase, -⟩, -⟩
    · simp [ParsedFile.import?, hroot.2] at himport
    · simp [hroot.1] at hbase
  have hbroken : AgreeApart [⟨.root, ["T.docs.py"]⟩] bareDisk.toFileSystem
      brokenDisk.toFileSystem := agreeApart_write (p := ⟨.root, ["T.docs.py"]⟩) rfl _ _
  have hshadowed : AgreeApart [⟨.root, ["T.docs.json"]⟩] brokenDisk.toFileSystem
      shadowedDisk.toFileSystem := agreeApart_write (p := ⟨.root, ["T.docs.json"]⟩) rfl _ _
  obtain ⟨-, hfailing, hcounting⟩ :=
    c.document_eq_of_firstOverride shadowedDisk.toFileSystem component _ hbare hlimits
  refine ⟨hfirst, hfails, ?_, ?_⟩
  · obtain ⟨-, -, hsame⟩ := hfailing _ _ hfirst _ _ (Prod.ext hfails rfl)
    refine hsame bareDisk.toFileSystem component rfl ?_ (hnot _) hnone
    exact ((hbroken.mono (by decide +kernel)).trans (hshadowed.mono (by decide +kernel))).symm
  · refine hcounting brokenDisk.toFileSystem component rfl ?_ (hnot _) (hfirst'.trans hfirst.symm)
    refine (hshadowed.mono ?_).symm
    rw [hothers]
    decide +kernel

end ComponentDocs
