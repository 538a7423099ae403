import ComponentDocs.Proofs.Extraction.Steps
import ComponentDocs.Proofs.Files.Destination

/-!
# Looking for modules

The file that a module name stands for is looked for at several places, one after the other
(`probes`), until one of them holds a file.  The search fails only if it first comes upon a place
that cannot be looked at (`Blocked`): a path without a name, to which no ending can be added, or one
with a name that is too long (`exists_moduleFor?_error_iff`).  What it finds can be read
(`exists_fileAt`), so nothing else can go wrong with a base (`exists_resolution_error_iff`).
-/

namespace ComponentDocs

open Source

namespace Project

/-! ## Places to look at -/

/-- The places where a module is looked for, given a path that it may stand for. -/
def places (stem : Path) : List Path :=
  stem :: moduleSuffixes.map (fun suffix => stem.parent.child (stem.name ++ suffix)) ++
    indexNames.map stem.child

/-- The places where a module is looked for, given all paths that it may stand for; nothing stands
for a path without a name. -/
def probes (stems : List Path) : List (Option Path) :=
  stems.flatMap fun stem => if stem.segments = [] then [none] else (places stem).map some

/-- The search comes upon a place that cannot be looked at before it finds a file. -/
inductive Blocked (fs : FileSystem) : List (Option Path) → Prop
  | unnamed (rest : List (Option Path)) : Blocked fs (none :: rest)
  | tooLong {place : Path} (rest : List (Option Path))
      (hplace : fs.lookup place = .error .nameTooLong) : Blocked fs (some place :: rest)
  | further {place : Path} {rest : List (Option Path)} (hplace : fs.isFile place = .ok false)
      (hrest : Blocked fs rest) : Blocked fs (some place :: rest)

variable {fs : FileSystem} {P : Project} {file : ParsedFile} {stems : List Path}
  {rest : List (Option Path)}

theorem candidates_eq (stem : Path) :
    candidates stem =
      if stem.segments = [] then .error (.unnamed stem) else .ok (places stem) := by
  by_cases hnone : stem.segments = []
  · have hname (name : String) : stem.withName? name = none := by simp [Path.withName?, hnone]
    rw [if_pos hnone, candidates, moduleSuffixes, List.mapM_cons, hname]
    rfl
  · have hname (name : String) : stem.withName? name = some (stem.parent.child name) := by
      simp [Path.withName?, hnone, Path.parent, Path.child]
    rw [if_neg hnone, candidates, moduleSuffixes]
    simp only [List.mapM_cons, List.mapM_nil, hname]
    rfl

theorem isFile_eq_error_iff {place : Path} {e : FileError} :
    fs.isFile place = .error e ↔
      fs.lookup place = .error .nameTooLong ∧ e = ⟨.nameTooLong, place⟩ := by
  unfold FileSystem.isFile FileSystem.entry?
  cases fs.lookup place with
  | error problem =>
      cases problem <;> simp [bind, Except.bind, pure, Except.pure, eq_comm]
  | ok entry => cases entry <;> simp [bind, Except.bind, pure, Except.pure]

/-! ## When the search fails -/

theorem blocked_some_iff {place : Path} :
    Blocked fs (some place :: rest) ↔
      (∃ e, fs.isFile place = .error e) ∨ fs.isFile place = .ok false ∧ Blocked fs rest := by
  constructor
  · intro hblocked
    cases hblocked with
    | tooLong _ hplace => exact .inl ⟨_, isFile_eq_error_iff.mpr ⟨hplace, rfl⟩⟩
    | further hplace hrest => exact .inr ⟨hplace, hrest⟩
  · rintro (⟨e, he⟩ | ⟨hplace, hrest⟩)
    · exact .tooLong _ (isFile_eq_error_iff.mp he).1
    · exact .further hplace hrest

/-- Looking at some places goes wrong, ends the search or leaves it to the places after them. -/
theorem blocked_append_iff {paths : List Path} :
    Blocked fs (paths.map some ++ rest) ↔
      (∃ e, fs.firstFile paths = .error e) ∨
        fs.firstFile paths = .ok none ∧ Blocked fs rest := by
  induction paths with
  | nil => simp [FileSystem.firstFile]
  | cons path more ih =>
      rw [List.map_cons, List.cons_append, blocked_some_iff, ih, FileSystem.firstFile]
      cases fs.isFile path with
      | error e => simp
      | ok answer => cases answer <;> simp

/-- **The search for a module fails if and only if it is blocked.** -/
theorem exists_firstModule_error_iff :
    (∃ e, firstModule fs stems = .error e) ↔ Blocked fs (probes stems) := by
  induction stems with
  | nil =>
      refine ⟨fun ⟨e, he⟩ => (by cases he), fun hblocked => ?_⟩
      cases hblocked
  | cons stem more ih =>
      rw [firstModule, candidates_eq, probes, List.flatMap_cons, ← probes]
      by_cases hnone : stem.segments = []
      · rw [if_pos hnone, if_pos hnone]
        exact ⟨fun _ => .unnamed _, fun _ => ⟨_, rfl⟩⟩
      · rw [if_neg hnone, if_neg hnone, blocked_append_iff, ← ih]
        cases hfirst : fs.firstFile (places stem) with
        | error e => simp [bind, Except.bind, hfirst]
        | ok found => cases found <;> simp [bind, Except.bind, pure, Except.pure, hfirst]

theorem exists_moduleFor?_error_iff {specifier : String} :
    (∃ e, P.moduleFor? fs file specifier = .error e) ↔
      Blocked fs (probes (P.moduleStems file specifier)) :=
  exists_firstModule_error_iff

/-! ## What the search finds -/

private theorem isAbsolute_of_mem_places {stem place : Path} (hstem : stem.isAbsolute)
    (hplace : place ∈ places stem) : place.isAbsolute := by
  have hanchor : place.anchor = stem.anchor := by
    simp only [places, List.mem_append, List.mem_cons, List.mem_map] at hplace
    rcases hplace with (rfl | ⟨suffix, -, rfl⟩) | ⟨name, -, rfl⟩ <;> rfl
  rwa [Path.isAbsolute, hanchor]

private theorem isAbsolute_join {p : Path} (hp : p.isAbsolute) (q : Path) :
    (p.join q).isAbsolute := by
  unfold Path.join
  split
  · assumption
  · exact hp

private theorem isAbsolute_optionsOf {directory : Path} (hdirectory : directory.isAbsolute)
    (data : Option Datum) : (optionsOf fs directory data).1.isAbsolute := by
  unfold optionsOf
  split
  · split
    · dsimp only
      split
      · exact (FileSystem.settled_resolve fs _).isAbsolute
      · exact hdirectory
    · exact hdirectory
  · exact hdirectory

/-- The aliases of a project start at a path from the root. -/
theorem isAbsolute_base_of_start {configuration : Option Path}
    (hstart : start fs configuration = .ok P) : P.base.isAbsolute := by
  rw [start] at hstart
  cases hpath : fs.canonical (configuration.getD (fs.currentPath.child configurationName)) with
  | error e => simp [hpath, bind, Except.bind] at hstart
  | ok path =>
      have hplace : path.isAbsolute := (FileSystem.settled_of_canonical hpath).isAbsolute
      have hdirectory : path.parent.isAbsolute := hplace
      simp only [hpath, bind, Except.bind, pure, Except.pure] at hstart
      split at hstart
      · cases hstart
      · cases hstart
        exact hdirectory
      · split at hstart
        · cases hstart
        · cases hstart
          exact hdirectory
        · cases hstart
          exact isAbsolute_optionsOf hdirectory _

/-- A module is looked for under paths from the root, if the aliases start at one. -/
theorem isAbsolute_of_mem_moduleStems (hbase : P.base.isAbsolute) (hfile : file.path.isAbsolute)
    {specifier : String} {stem : Path} (hstem : stem ∈ P.moduleStems file specifier) :
    stem.isAbsolute := by
  unfold moduleStems at hstem
  split at hstem
  · have hparent : file.path.parent.isAbsolute := hfile
    rw [List.mem_singleton.mp hstem]
    exact isAbsolute_join hparent _
  · obtain ⟨entry, -, hentry⟩ := List.mem_flatMap.mp hstem
    unfold Alias.bases at hentry
    split at hentry
    · dsimp only at hentry
      split at hentry
      · obtain ⟨target, -, rfl⟩ := List.mem_map.mp hentry
        exact isAbsolute_join hbase _
      · cases hentry
    · split at hentry
      · obtain ⟨target, -, rfl⟩ := List.mem_map.mp hentry
        exact isAbsolute_join hbase _
      · cases hentry

private theorem exists_place_of_firstModule {path : Path}
    (hfound : firstModule fs stems = .ok (some path)) :
    ∃ stem ∈ stems, ∃ place ∈ places stem,
      fs.isFile place = .ok true ∧ path = fs.resolve place := by
  induction stems with
  | nil => cases hfound
  | cons stem more ih =>
      rw [firstModule, candidates_eq] at hfound
      by_cases hnone : stem.segments = []
      · rw [if_pos hnone] at hfound
        cases hfound
      · rw [if_neg hnone] at hfound
        cases hfirst : fs.firstFile (places stem) with
        | error e => simp [hfirst, bind, Except.bind] at hfound
        | ok found =>
            cases found with
            | none =>
                simp only [bind, Except.bind, hfirst] at hfound
                obtain ⟨other, hother, hplace⟩ := ih hfound
                exact ⟨other, List.mem_cons_of_mem _ hother, hplace⟩
            | some place =>
                simp only [bind, Except.bind, hfirst, pure, Except.pure, Except.ok.injEq,
                  Option.some.injEq] at hfound
                obtain ⟨hplace, hisFile⟩ := FileSystem.of_firstFile_eq_some hfirst
                exact ⟨stem, List.mem_cons_self, place, hplace, hisFile, hfound.symm⟩

/-- The file that a module name stands for can be read. -/
theorem exists_fileAt (hbase : P.base.isAbsolute) (hfile : file.path.isAbsolute)
    {specifier : String} {path : Path} (hpath : P.moduleFor? fs file specifier = .ok (some path)) :
    ∃ target, P.fileAt fs path = .ok target := by
  obtain ⟨stem, hstem, place, hplace, hisFile, rfl⟩ := exists_place_of_firstModule hpath
  have habsolute := isAbsolute_of_mem_moduleStems hbase hfile hstem
  obtain ⟨source, hsource⟩ :=
    FileSystem.exists_read_resolve (isAbsolute_of_mem_places habsolute hplace) hisFile
  unfold fileAt
  split
  · exact ⟨_, rfl⟩
  · rw [hsource]
    exact ⟨_, rfl⟩

end Project

namespace Extraction

open Project

variable {fs : FileSystem} {P : Project} {file : ParsedFile} {base : BaseType}

/-- A base of a file that is imported under a module name for which the search is blocked. -/
def BlockedBase (P : Project) (fs : FileSystem) (file : ParsedFile) (base : BaseType) : Prop :=
  ∃ name specifier exported, base = .named name ∧ file.declaration? name = none ∧
    file.import? name = some (specifier, exported) ∧
    Blocked fs (probes (P.moduleStems file specifier))

/-- **Finding a base fails if and only if it is imported and the search for its module is
blocked.** -/
theorem exists_resolution_error_iff (hbase : P.base.isAbsolute) (hfile : file.path.isAbsolute) :
    (∃ e, resolution P fs file base = .error e) ↔ BlockedBase P fs file base := by
  constructor
  · rintro ⟨e, he⟩
    cases base with
    | qualifiedGeneric => cases he
    | qualified text => cases he
    | named name =>
        unfold resolution at he
        dsimp only at he
        split at he
        · cases he
        · next hlocal =>
            split at he
            · next specifier exported himport =>
                refine ⟨name, specifier, exported, rfl, hlocal, himport,
                  exists_moduleFor?_error_iff.mp ?_⟩
                unfold resolutionOfImport at he
                split at he
                · next fault hmodule => exact ⟨fault, hmodule⟩
                · cases he
                · next path hpath =>
                    obtain ⟨target, htarget⟩ := exists_fileAt hbase hfile hpath
                    rw [htarget] at he
                    cases he
            · cases he
  · rintro ⟨name, specifier, exported, rfl, hlocal, himport, hblocked⟩
    obtain ⟨e, he⟩ := exists_moduleFor?_error_iff.mpr hblocked
    refine ⟨e, ?_⟩
    simp only [resolution, hlocal, himport, resolutionOfImport, he]

end Extraction

end ComponentDocs
