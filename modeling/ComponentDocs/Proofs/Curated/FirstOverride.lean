import Mathlib.Data.List.Basic
import ComponentDocs.Proofs.Curated.StatedCategory
import ComponentDocs.Proofs.Files.Destination

/-!
# The first override file

A component can have several override files, of different formats or with different endings.  Going
through the formats in order and through the endings of each, the first place with a file decides
(`curatedFor_eq_curatedFrom`): that file alone is read, and if that fails at any point, nothing is
stated and the failure is the last thing that is reported.
-/

namespace ComponentDocs

/-! ## Candidates -/

/-- The places where an override file may be, with their formats and in the order in which they are
looked for.  All of them have the same path but for their endings. -/
def overrideCandidates (bare : Path) (formats : List OverrideFormat) :
    List (OverrideFormat × Path) :=
  formats.flatMap fun format =>
    format.endings.map fun ending => (format, bare.parent.child (bare.name ++ ending))

/-- Whether all candidates can be looked up, none of their names being too long. -/
def WithinLimits (fs : FileSystem) (candidates : List (OverrideFormat × Path)) : Prop :=
  ∀ candidate ∈ candidates, ∃ answer, fs.isFile candidate.2 = .ok answer

/-- The first candidate with a file. -/
def firstOverride (fs : FileSystem) (candidates : List (OverrideFormat × Path)) :
    Option (OverrideFormat × Path) :=
  candidates.find? fun candidate => fs.isFile candidate.2 = .ok true

variable {fs : FileSystem} {component bare : Path}

theorem FileSystem.firstFile_eq_find? {paths : List Path}
    (hlimits : ∀ p ∈ paths, ∃ answer, fs.isFile p = .ok answer) :
    fs.firstFile paths = .ok (paths.find? fun p => fs.isFile p = .ok true) := by
  induction paths with
  | nil => rfl
  | cons path rest ih =>
      obtain ⟨⟨answer, hanswer⟩, hrest⟩ := List.forall_mem_cons.mp hlimits
      rw [firstFile, hanswer]
      cases answer with
      | true => simp [hanswer]
      | false => simp [hanswer, ih hrest]

theorem OverrideFormat.eq_of_base (hbare : OverrideFormat.base component = .ok bare) :
    bare = component.parent.child (component.stem ++ ".docs") := by
  unfold base Path.withName? at hbare
  by_cases hnone : component.segments.isEmpty = true
  · simp [hnone] at hbare
  · simp only [hnone] at hbare
    cases hbare
    rfl

/-- The paths of a format are its candidates. -/
theorem OverrideFormat.path?_eq (format : OverrideFormat)
    (hbare : OverrideFormat.base component = .ok bare)
    (hlimits : ∀ ending ∈ format.endings, ∃ answer,
      fs.isFile (bare.parent.child (bare.name ++ ending)) = .ok answer) :
    format.path? fs component =
      .ok ((format.endings.map fun ending => bare.parent.child (bare.name ++ ending)).find?
        fun p => fs.isFile p = .ok true) := by
  unfold path? candidates
  rw [hbare]
  exact FileSystem.firstFile_eq_find? (by simpa using hlimits)

theorem WithinLimits.exists_path? {formats : List OverrideFormat}
    (hlimits : WithinLimits fs (overrideCandidates bare formats))
    (hbare : OverrideFormat.base component = .ok bare) :
    ∀ format ∈ formats, ∃ found, format.path? fs component = .ok found := by
  intro format hformat
  refine ⟨_, format.path?_eq hbare fun ending hending => hlimits (format, _) ?_⟩
  exact List.mem_flatMap.mpr ⟨format, hformat, List.mem_map_of_mem hending⟩

theorem firstOverride_cons (format : OverrideFormat) (formats : List OverrideFormat) :
    firstOverride fs (overrideCandidates bare (format :: formats)) =
      (((format.endings.map fun ending => bare.parent.child (bare.name ++ ending)).find?
        fun p => fs.isFile p = .ok true).map (format, ·)).or
          (firstOverride fs (overrideCandidates bare formats)) := by
  have hpaths : (format.endings.map fun ending => (format, bare.parent.child (bare.name ++ ending)))
      = (format.endings.map fun ending => bare.parent.child (bare.name ++ ending)).map
        (format, ·) := by
    rw [List.map_map]
    rfl
  rw [overrideCandidates, List.flatMap_cons, firstOverride, List.find?_append, hpaths,
    List.find?_map]
  rfl

/-! ## Where candidates lie -/

/-- Without its suffix, a name that ends in a dot and a text without dots is the whole name or stops
at that dot. -/
theorem Path.length_splitSuffix {suffix : List Char} (hsuffix : '.' ∉ suffix)
    (before : List Char) :
    (splitSuffix (before ++ '.' :: suffix)).1 = before ++ '.' :: suffix ∨
      (splitSuffix (before ++ '.' :: suffix)).1.length = before.length := by
  have htail : ((before ++ '.' :: suffix).reverse.takeWhile (· != '.')).reverse = suffix := by
    have hall : ∀ c ∈ suffix.reverse, (c != '.') = true := fun c hc => by
      simpa using fun h : c = '.' => hsuffix (h ▸ List.mem_reverse.mp hc)
    simp [List.takeWhile_append_of_pos hall]
  unfold splitSuffix
  dsimp only
  rw [htail]
  split
  · exact .inl rfl
  · right
    simp

/-- An override file bears another name than its component. -/
theorem OverrideFormat.name_ne (component : Path) (format : OverrideFormat) :
    ∀ ending ∈ format.endings, component.stem ++ ".docs" ++ ending ≠ component.name := by
  intro ending hending hsame
  obtain ⟨suffix, hending, hsuffix⟩ : ∃ suffix : List Char,
      ending.toList = '.' :: suffix ∧ '.' ∉ suffix := by
    cases format <;> simp only [endings, List.mem_cons, List.not_mem_nil, or_false] at hending
    · exact ⟨"py".toList, by rw [hending]; rfl, by decide⟩
    · rcases hending with rfl | rfl | rfl
      · exact ⟨"yml".toList, rfl, by decide⟩
      · exact ⟨"yaml".toList, rfl, by decide⟩
      · exact ⟨"json".toList, rfl, by decide⟩
  have hname : component.name.toList =
      (component.stem.toList ++ ".docs".toList) ++ '.' :: suffix := by
    rw [← hsame, String.toList_append, String.toList_append, hending]
  have hstem : component.stem.toList = (Path.splitSuffix component.name.toList).1 := by
    rw [Path.stem, String.toList_ofList]
  have hsplit := Path.length_splitSuffix hsuffix (component.stem.toList ++ ".docs".toList)
  rcases hsplit with hwhole | hlength
  · rw [← hname, ← hstem] at hwhole
    have := congrArg List.length (hwhole.trans hname)
    simp at this
  · rw [← hname, ← hstem] at hlength
    simp at hlength

/-- A candidate lies beside its component. -/
theorem exists_of_mem_overrideCandidates {formats : List OverrideFormat}
    (hbare : OverrideFormat.base component = .ok bare) {candidate : OverrideFormat × Path}
    (hcandidate : candidate ∈ overrideCandidates bare formats) :
    component.segments ≠ [] ∧ ∃ name : String, name ≠ component.name ∧ name ≠ ".." ∧
      candidate.2 = ⟨component.anchor, component.segments.dropLast ++ [name]⟩ := by
  unfold OverrideFormat.base Path.withName? at hbare
  split at hbare
  · next path hpath =>
      split at hpath
      · cases hpath
      · next hne =>
          cases hpath
          cases hbare
          obtain ⟨format, -, hcandidate⟩ := List.mem_flatMap.mp hcandidate
          obtain ⟨ending, hending, rfl⟩ := List.mem_map.mp hcandidate
          refine ⟨by simpa using hne, component.stem ++ ".docs" ++ ending,
            OverrideFormat.name_ne component format ending hending, fun hdots => ?_, ?_⟩
          · have hlength := congrArg (fun s => s.toList.length) hdots
            simp at hlength
            omega
          · simp [Path.parent, Path.name, Path.child]
  · cases hbare

section Beside

variable {formats : List OverrideFormat} {candidate other : OverrideFormat × Path}

theorem settled_of_mem_overrideCandidates (hbare : OverrideFormat.base component = .ok bare)
    (hcomponent : component.Settled) (hcandidate : candidate ∈ overrideCandidates bare formats) :
    candidate.2.Settled := by
  obtain ⟨-, name, -, hdots, hpath⟩ := exists_of_mem_overrideCandidates hbare hcandidate
  rw [hpath]
  refine ⟨hcomponent.anchor_eq, fun hmem => ?_⟩
  rcases List.mem_append.mp hmem with hmem | hmem
  · exact hcomponent.no_dots (List.dropLast_subset _ hmem)
  · exact hdots (List.mem_singleton.mp hmem).symm

/-- The component lies below none of its candidates. -/
theorem not_prefix_component (hbare : OverrideFormat.base component = .ok bare)
    (hcandidate : candidate ∈ overrideCandidates bare formats) :
    ¬ candidate.2.segments <+: component.segments := by
  obtain ⟨hne, name, hname, -, hpath⟩ := exists_of_mem_overrideCandidates hbare hcandidate
  intro habove
  have hlast : component.segments.dropLast ++ [component.name] = component.segments := by
    rw [Path.name, List.getLast?_eq_some_getLast hne]
    exact List.dropLast_concat_getLast hne
  rw [hpath, ← hlast] at habove
  have hsame := habove.eq_of_length (by simp)
  rw [List.dropLast_concat, List.append_cancel_left_eq] at hsame
  exact hname (List.head_eq_of_cons_eq hsame)

/-- No candidate lies below another one. -/
theorem not_prefix_candidate (hbare : OverrideFormat.base component = .ok bare)
    (hcandidate : candidate ∈ overrideCandidates bare formats)
    (hother : other ∈ overrideCandidates bare formats) (hne : other.2 ≠ candidate.2) :
    ¬ other.2.segments <+: candidate.2.segments := by
  obtain ⟨-, name, -, -, hpath⟩ := exists_of_mem_overrideCandidates hbare hcandidate
  obtain ⟨-, name', -, -, hpath'⟩ := exists_of_mem_overrideCandidates hbare hother
  intro habove
  rw [hpath, hpath'] at habove
  have hsame : component.segments.dropLast ++ [name'] = component.segments.dropLast ++ [name] :=
    habove.eq_of_length (by simp)
  exact hne (by rw [hpath, hpath', hsame])

end Beside

/-! ## What is curated -/

/-- What loading the override file at a candidate gives; a file that cannot be loaded is reported
and states nothing. -/
def curatedFrom (fs : FileSystem) (component : Path) :
    Option (OverrideFormat × Path) → Curated × List Diagnostic
  | none => ({}, [])
  | some (format, path) =>
    match format.loadFile fs path with
    | (.ok curated, notes) => (curated, notes)
    | (.error e, notes) => ({}, notes ++ [⟨component.toString, .warning,
        "Could not load curated docs from " ++ path.toString ++ ": " ++ e.message⟩])

/-- **The first override file decides.** -/
theorem curatedFor_eq_curatedFrom {formats : List OverrideFormat}
    (hbare : OverrideFormat.base component = .ok bare)
    (hlimits : WithinLimits fs (overrideCandidates bare formats)) :
    curatedFor fs component formats =
      (.ok (curatedFrom fs component (firstOverride fs (overrideCandidates bare formats))).1,
        (curatedFrom fs component (firstOverride fs (overrideCandidates bare formats))).2) := by
  induction formats with
  | nil => rfl
  | cons format rest ih =>
      have hfirst : ∀ ending ∈ format.endings, ∃ answer,
          fs.isFile (bare.parent.child (bare.name ++ ending)) = .ok answer := fun ending hending =>
        hlimits _ (List.mem_append_left _ (List.mem_map_of_mem hending))
      have hrest : WithinLimits fs (overrideCandidates bare rest) := fun candidate hcandidate =>
        hlimits candidate (List.mem_append_right _ hcandidate)
      rw [curatedFor, format.path?_eq hbare hfirst, firstOverride_cons]
      cases (format.endings.map fun ending => bare.parent.child (bare.name ++ ending)).find?
          fun p => fs.isFile p = .ok true with
      | none => exact ih hrest
      | some path =>
          dsimp only [Option.map_some, Option.some_or, curatedFrom]
          rcases format.loadFile fs path with ⟨_ | _, _⟩ <;> rfl

/-! ## What is reported of a file -/

namespace Curated

variable {source : String}

/-- Reading that reports about one file only. -/
private def ReportsOn {α : Type} (source : String) (reading : Reading α) : Prop :=
  ∀ notes : List Diagnostic, (∀ note ∈ notes, note.file = source) →
    ∀ note ∈ (reading.run notes).2, note.file = source

private theorem ReportsOn.bind {α β : Type} {x : Reading α} {f : α → Reading β}
    (hx : ReportsOn source x) (hf : ∀ a, ReportsOn source (f a)) : ReportsOn source (x >>= f) := by
  intro notes hnotes
  have hfirst := hx notes hnotes
  rw [Reading.run_bind]
  generalize x.run notes = result at hfirst ⊢
  obtain ⟨e | a, after⟩ := result
  · exact hfirst
  · exact hf a after hfirst

private theorem reportsOn_pure {α : Type} (a : α) : ReportsOn source (pure a : Reading α) :=
  fun _ hnotes => hnotes

private theorem reportsOn_throw {α : Type} (e : CuratedProblem) :
    ReportsOn source (throw e : Reading α) :=
  fun _ hnotes => hnotes

private theorem reportsOn_report (severity : Severity) (message : String) :
    ReportsOn source (report source severity message) := by
  intro notes hnotes note hnote
  rcases List.mem_append.mp hnote with hnote | hnote
  · exact hnotes note hnote
  · rw [List.mem_singleton.mp hnote]

private theorem reportsOn_addEntry (c : Curated) (entry : Datum × Datum) :
    ReportsOn source (addEntry source c entry) := by
  unfold addEntry
  split
  split
  · exact (reportsOn_report _ _).bind fun _ => reportsOn_pure _
  · split
    · exact (reportsOn_report _ _).bind fun _ => reportsOn_pure _
    · exact reportsOn_pure _
    · exact reportsOn_pure _
    · exact reportsOn_throw _

private theorem reportsOn_checkCategory (c : Curated) :
    ReportsOn source (checkCategory source c) := by
  unfold checkCategory
  split
  · split
    · exact reportsOn_pure _
    · exact (reportsOn_report _ _).bind fun _ => reportsOn_pure _
  · exact reportsOn_pure _

private theorem reportsOn_read (entries : List (Datum × Datum)) :
    ReportsOn source (read source entries) := by
  have hfold (c : Curated) : ReportsOn source (entries.foldlM (addEntry source) c) := by
    induction entries generalizing c with
    | nil => exact reportsOn_pure c
    | cons entry rest ih =>
        rw [List.foldlM_cons]
        exact (reportsOn_addEntry c entry).bind ih
  exact (hfold {}).bind reportsOn_checkCategory

end Curated

/-- What is reported when an override file is loaded is about that file. -/
theorem OverrideFormat.file_of_mem_loadFile {format : OverrideFormat} {path : Path}
    {note : Diagnostic} (hnote : note ∈ (format.loadFile fs path).2) :
    note.file = path.toString := by
  unfold loadFile at hnote
  split at hnote
  · cases hnote
  · next entries _ =>
      have hnotes : ∀ note ∈ ((Curated.read path.toString entries).run []).2,
          note.file = path.toString :=
        Curated.reportsOn_read entries [] fun _ h => absurd h List.not_mem_nil
      split at hnote
      · next hparsed => exact hnotes note (congrArg Prod.snd hparsed ▸ hnote)
      · next hparsed => exact hnotes note (congrArg Prod.snd hparsed ▸ hnote)
  · cases hnote

end ComponentDocs
