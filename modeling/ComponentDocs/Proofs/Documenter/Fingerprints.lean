import Mathlib.Data.List.ReduceOption
import ComponentDocs.Proofs.Documenter.Records

/-!
# Fingerprints

A fingerprint joins the paths and bytes of a source file and of its override files into one list of
bytes, without a mark where one file ends and the next one starts.  So equal fingerprints do not
make equal files; they do if the same override files are found and all files keep their sizes
(`SameLayout.bytesAt_eq`).  The curated fields of a component are then the same, too
(`curatedFor_congr`).
-/

namespace ComponentDocs

namespace Documenter

variable {setup : DocumenterSetup} {fs gs : FileSystem} {path : Path}

/-- The bytes at a path, if there is a file. -/
def bytesAt (fs : FileSystem) (path : Path) : Option (List UInt8) := (fs.read path).toOption

/-- The same override files are found, and these and the source file have the same sizes. -/
structure SameLayout (setup : DocumenterSetup) (fs gs : FileSystem) (path : Path) : Prop where
  found_eq : ∀ format ∈ setup.formats, format.path? fs path = format.path? gs path
  source_length : (bytesAt fs path).map List.length = (bytesAt gs path).map List.length
  override_length : ∀ format ∈ setup.formats, ∀ p, format.path? fs path = .ok (some p) →
    (bytesAt fs p).map List.length = (bytesAt gs p).map List.length

/-! ## Joined bytes -/

/-- Blocks of the same lengths that are joined to the same list are the same. -/
private theorem eq_of_flatMap_eq {α β : Type} {f g : α → List β} {xs : List α}
    (hlength : ∀ x ∈ xs, (f x).length = (g x).length)
    (hjoined : xs.flatMap f = xs.flatMap g) : ∀ x ∈ xs, f x = g x := by
  induction xs with
  | nil => simp
  | cons x rest ih =>
      rw [List.forall_mem_cons] at hlength ⊢
      rw [List.flatMap_cons, List.flatMap_cons] at hjoined
      obtain ⟨hfirst, hrest⟩ := List.append_inj hjoined hlength.1
      exact ⟨hfirst, ih hlength.2 hrest⟩

theorem fileBytes_eq (fs : FileSystem) (path : Path) :
    fileBytes fs path = Text.bytesOf path.toString ++ (bytesAt fs path).getD missingMark := by
  unfold fileBytes bytesAt
  cases fs.read path <;> rfl

private theorem bytesAt_eq_of_fileBytes_eq
    (hlength : (bytesAt fs path).map List.length = (bytesAt gs path).map List.length)
    (hbytes : fileBytes fs path = fileBytes gs path) : bytesAt fs path = bytesAt gs path := by
  rw [fileBytes_eq, fileBytes_eq, List.append_cancel_left_eq] at hbytes
  cases hleft : bytesAt fs path with
  | none =>
      cases hright : bytesAt gs path with
      | none => rfl
      | some bytes => simp [hleft, hright] at hlength
  | some bytes =>
      cases hright : bytesAt gs path with
      | none => simp [hleft, hright] at hlength
      | some other => simpa [hleft, hright] using hbytes

private theorem length_fileBytes_eq
    (hlength : (bytesAt fs path).map List.length = (bytesAt gs path).map List.length) :
    (fileBytes fs path).length = (fileBytes gs path).length := by
  rw [fileBytes_eq, fileBytes_eq, List.length_append, List.length_append]
  cases hleft : bytesAt fs path <;> cases hright : bytesAt gs path <;> simp_all

/-! ## Equal fingerprints -/

/-- A fingerprint tells of the source file and of one override file for each format with one. -/
theorem exists_of_fingerprint {print : Fingerprint}
    (hprint : fingerprint setup fs path = .ok print) :
    ∃ found : List (Option Path),
      (setup.formats.map fun format => format.path? fs path) = found.map .ok ∧
      print = (path :: found.reduceOption).flatMap (fileBytes fs) := by
  unfold fingerprint overrideFiles at hprint
  cases hfound : setup.formats.mapM fun format => format.path? fs path with
  | error e => simp [hfound, bind, Except.bind] at hprint
  | ok found =>
      refine ⟨found, mapM_eq_ok.mp hfound, ?_⟩
      simp only [hfound, bind, Except.bind, pure, Except.pure, Except.ok.injEq] at hprint
      exact hprint.symm

/-- The override files that a fingerprint tells of are those that are found. -/
theorem mem_reduceOption_iff {found : List (Option Path)} {p : Path}
    (hfound : (setup.formats.map fun format => format.path? fs path) = found.map .ok) :
    p ∈ found.reduceOption ↔ ∃ format ∈ setup.formats, format.path? fs path = .ok (some p) := by
  calc p ∈ found.reduceOption ↔ some p ∈ found := List.reduceOption_mem_iff
    _ ↔ Except.ok (some p) ∈ found.map (.ok : Option Path → Except Fault (Option Path)) := by simp
    _ ↔ _ := by rw [← hfound, List.mem_map]

/-- If there is a fingerprint, the override files could be looked for. -/
theorem exists_path?_of_fingerprint {print : Fingerprint}
    (hprint : fingerprint setup fs path = .ok print) :
    ∀ format ∈ setup.formats, ∃ found, format.path? fs path = .ok found := by
  intro format hformat
  obtain ⟨found, hfound, -⟩ := exists_of_fingerprint hprint
  have hmem : format.path? fs path ∈ found.map .ok :=
    hfound ▸ List.mem_map_of_mem (f := fun format => format.path? fs path) hformat
  obtain ⟨p, -, hp⟩ := List.mem_map.mp hmem
  exact ⟨p, hp.symm⟩

/-- If the override files can be looked for, there is a fingerprint. -/
theorem exists_fingerprint
    (hfound : ∀ format ∈ setup.formats, ∃ found, format.path? fs path = .ok found) :
    ∃ print, fingerprint setup fs path = .ok print := by
  have hmapM : (setup.formats.mapM fun format => format.path? fs path) =
      .ok (setup.formats.map fun format => (format.path? fs path).toOption.getD none) := by
    rw [mapM_eq_ok, List.map_map]
    refine List.map_congr_left fun format hformat => ?_
    obtain ⟨found, hfound⟩ := hfound format hformat
    simp [hfound, Except.toOption]
  unfold fingerprint overrideFiles
  rw [hmapM]
  exact ⟨_, rfl⟩

/-- With equal fingerprints and the same layout each of the files has the same bytes. -/
theorem SameLayout.bytesAt_eq (hlayout : SameLayout setup fs gs path) {print : Fingerprint}
    (hleft : fingerprint setup fs path = .ok print)
    (hright : fingerprint setup gs path = .ok print) :
    bytesAt fs path = bytesAt gs path ∧ ∀ format ∈ setup.formats, ∀ p,
      format.path? fs path = .ok (some p) → bytesAt fs p = bytesAt gs p := by
  obtain ⟨found, hfound, hprint⟩ := exists_of_fingerprint hleft
  obtain ⟨other, hother, hprint'⟩ := exists_of_fingerprint hright
  have hsame : found = other := by
    rw [List.map_congr_left hlayout.found_eq, hother] at hfound
    exact (List.map_injective_iff.mpr (fun _ _ h => Except.ok.inj h) hfound).symm
  subst hsame
  -- the layout makes the joined blocks as long as each other, so they can be told apart
  have hlength : ∀ p ∈ path :: found.reduceOption,
      (bytesAt fs p).map List.length = (bytesAt gs p).map List.length := by
    refine List.forall_mem_cons.mpr ⟨hlayout.source_length, fun p hp => ?_⟩
    obtain ⟨format, hformat, hp⟩ := (mem_reduceOption_iff hfound).mp hp
    exact hlayout.override_length format hformat p hp
  have hbytes := eq_of_flatMap_eq (fun p hp => length_fileBytes_eq (hlength p hp))
    (hprint.symm.trans hprint')
  have hall : ∀ p ∈ path :: found.reduceOption, bytesAt fs p = bytesAt gs p := fun p hp =>
    bytesAt_eq_of_fileBytes_eq (hlength p hp) (hbytes p hp)
  rw [List.forall_mem_cons] at hall
  exact ⟨hall.1, fun format hformat p hp =>
    hall.2 p ((mem_reduceOption_iff hfound).mpr ⟨format, hformat, hp⟩)⟩

/-! ## Curated fields -/

private theorem read_congr (format : OverrideFormat) {p : Path}
    (hbytes : bytesAt fs p = bytesAt gs p) : format.read fs p = format.read gs p := by
  cases hleft : fs.read p with
  | error e =>
      cases hright : gs.read p with
      | error e' =>
          cases format <;>
            simp [OverrideFormat.read, OverrideFormat.readAssignments, OverrideFormat.readData,
              FileSystem.readText, hleft, hright]
      | ok source => simp [bytesAt, hleft, hright, Except.toOption] at hbytes
  | ok source =>
      have hright : gs.read p = .ok source := by
        cases hright : gs.read p <;> simp_all [bytesAt, Except.toOption]
      have htext : fs.readText p = gs.readText p := by
        rw [FileSystem.readText, FileSystem.readText, hleft, hright]
      cases format with
      | assignments =>
          rw [OverrideFormat.read, OverrideFormat.read, OverrideFormat.readAssignments,
            OverrideFormat.readAssignments, htext]
      | data =>
          rw [OverrideFormat.read, OverrideFormat.read, OverrideFormat.readData,
            OverrideFormat.readData, htext]

/-- What an override file states is a function of its bytes. -/
theorem loadFile_congr (format : OverrideFormat) {p : Path} (hbytes : bytesAt fs p = bytesAt gs p) :
    format.loadFile fs p = format.loadFile gs p := by
  unfold OverrideFormat.loadFile
  rw [read_congr format hbytes]

/-- Curated fields are read from the override file that is found first. -/
theorem curatedFor_congr {formats : List OverrideFormat}
    (hfound : ∀ format ∈ formats, format.path? fs path = format.path? gs path)
    (hbytes : ∀ format ∈ formats, ∀ p, format.path? fs path = .ok (some p) →
      bytesAt fs p = bytesAt gs p) :
    curatedFor fs path formats = curatedFor gs path formats := by
  induction formats with
  | nil => rfl
  | cons format rest ih =>
      rw [List.forall_mem_cons] at hfound hbytes
      rw [curatedFor, curatedFor, ← hfound.1]
      cases hpath : format.path? fs path with
      | error e => rfl
      | ok found =>
          cases found with
          | none => exact ih hfound.2 hbytes.2
          | some p =>
              dsimp only
              rw [loadFile_congr format (hbytes.1 p hpath)]

/-- If the override files can be looked for, there are curated fields, be they none at all. -/
theorem exists_curatedFor {formats : List OverrideFormat}
    (hfound : ∀ format ∈ formats, ∃ found, format.path? fs path = .ok found) :
    ∃ curated, (curatedFor fs path formats).1 = .ok curated := by
  induction formats with
  | nil => exact ⟨_, rfl⟩
  | cons format rest ih =>
      rw [List.forall_mem_cons] at hfound
      obtain ⟨⟨found, hformat⟩, hrest⟩ := hfound
      rw [curatedFor, hformat]
      cases found with
      | none => exact ih hrest
      | some p =>
          dsimp only
          rcases format.loadFile fs p with ⟨_ | curated, notes⟩
          · exact ⟨_, rfl⟩
          · exact ⟨curated, rfl⟩

end Documenter

end ComponentDocs
