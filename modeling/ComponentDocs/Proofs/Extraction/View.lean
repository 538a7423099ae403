import ComponentDocs.Extraction.Component
import ComponentDocs.Proofs.Files.Canonical

/-!
# What extraction sees of the files

A project shows at each canonical path the file that it has read there, or else the one on disk.
This view is all that extraction depends on: reading further files changes the project but not the
view (`Extends.sameView`), and a project whose files are as on disk shows just what is there
(`sameView_of_current`).

Each step of a walk gets one equation here, so that the walk itself never has to be unfolded down
to its state.
-/

namespace ComponentDocs

open Source

namespace Project

variable {fs : FileSystem} {P Q R : Project} {path : Path} {file : ParsedFile}

/-! ## Views -/

/-- The file that a project shows at a canonical path. -/
def fileAt (P : Project) (fs : FileSystem) (path : Path) : Except Fault ParsedFile :=
  match P.file? path with
  | some file => .ok file
  | none =>
    match fs.read path with
    | .ok source => .ok (.ofSource path source)
    | .error e => .error (.file e)

/-- The project with a file that it shows kept. -/
def keeping (P : Project) (file : ParsedFile) : Project :=
  if (P.file? file.path).isSome then P else { P with files := P.files ++ [file] }

/-- Two projects that show the same files and resolve module names alike. -/
structure SameView (fs : FileSystem) (P Q : Project) : Prop where
  base_eq : P.base = Q.base
  aliases_eq : P.aliases = Q.aliases
  fileAt_eq : ∀ path, P.fileAt fs path = Q.fileAt fs path

/-- The second project is the first one after reading some more files. -/
structure Extends (fs : FileSystem) (P Q : Project) : Prop where
  base_eq : Q.base = P.base
  aliases_eq : Q.aliases = P.aliases
  files_eq : ∃ more : List ParsedFile, Q.files = P.files ++ more ∧
    ∀ file ∈ more, fs.read file.path = .ok file.source

/-- Every file of the project has the bytes that are on disk. -/
def Current (fs : FileSystem) (P : Project) : Prop :=
  ∀ file ∈ P.files, fs.read file.path = .ok file.source

theorem path_of_file? (hfile : P.file? path = some file) : file.path = path := by
  simpa using List.find?_some hfile

theorem path_of_fileAt (hfile : P.fileAt fs path = .ok file) : file.path = path := by
  unfold fileAt at hfile
  split at hfile
  · next kept hkept =>
      injection hfile with hfile
      exact hfile ▸ path_of_file? hkept
  · split at hfile
    · injection hfile with hfile
      exact hfile ▸ rfl
    · cases hfile

/-- A file is determined by its path and its bytes. -/
theorem eq_ofSource (file : ParsedFile) : file = .ofSource file.path file.source := by
  obtain ⟨path, source, module, hmodule⟩ := file
  subst hmodule
  rfl

theorem isCurrent_eq (fs : FileSystem) (file : ParsedFile) :
    isCurrent fs file = decide (fs.read file.path = .ok file.source) := by
  unfold isCurrent
  cases fs.read file.path <;> simp

/-! ## Projects that show the same -/

namespace SameView

theorem refl (fs : FileSystem) (P : Project) : SameView fs P P := ⟨rfl, rfl, fun _ => rfl⟩

theorem symm (hview : SameView fs P Q) : SameView fs Q P :=
  ⟨hview.base_eq.symm, hview.aliases_eq.symm, fun path => (hview.fileAt_eq path).symm⟩

theorem trans (hfirst : SameView fs P Q) (hsecond : SameView fs Q R) : SameView fs P R :=
  ⟨hfirst.base_eq.trans hsecond.base_eq, hfirst.aliases_eq.trans hsecond.aliases_eq,
    fun path => (hfirst.fileAt_eq path).trans (hsecond.fileAt_eq path)⟩

end SameView

namespace Extends

theorem refl (fs : FileSystem) (P : Project) : Extends fs P P :=
  ⟨rfl, rfl, [], by simp, by simp⟩

theorem trans (hfirst : Extends fs P Q) (hsecond : Extends fs Q R) : Extends fs P R := by
  obtain ⟨more, hmore, hread⟩ := hfirst.files_eq
  obtain ⟨further, hfurther, hread'⟩ := hsecond.files_eq
  refine ⟨hsecond.base_eq.trans hfirst.base_eq, hsecond.aliases_eq.trans hfirst.aliases_eq,
    more ++ further, by rw [hfurther, hmore, List.append_assoc], fun file hfile => ?_⟩
  exact (List.mem_append.mp hfile).elim (hread file) (hread' file)

/-- Reading changes nothing of what a project shows. -/
theorem sameView (hext : Extends fs P Q) : SameView fs Q P := by
  obtain ⟨more, hmore, hread⟩ := hext.files_eq
  refine ⟨hext.base_eq, hext.aliases_eq, fun path => ?_⟩
  unfold fileAt file?
  rw [hmore, List.find?_append]
  cases hkept : P.files.find? (·.path = path) with
  | some file => rfl
  | none =>
      cases hnew : more.find? (·.path = path) with
      | none => rfl
      | some file =>
          have hpath : file.path = path := by simpa using List.find?_some hnew
          have hsource := hread file (List.mem_of_find?_eq_some hnew)
          rw [hpath] at hsource
          simp only [Option.none_or, hsource]
          exact congrArg Except.ok (hpath ▸ eq_ofSource file)

/-- What has not been read in the end has not been read before. -/
theorem file?_eq_none (hext : Extends fs P Q) (hnone : Q.file? path = none) :
    P.file? path = none := by
  obtain ⟨more, hmore, -⟩ := hext.files_eq
  rw [file?, hmore, List.find?_append, Option.or_eq_none_iff] at hnone
  exact hnone.1

theorem current (hext : Extends fs P Q) (hcurrent : Current fs P) : Current fs Q := by
  obtain ⟨more, hmore, hread⟩ := hext.files_eq
  intro file hfile
  rw [hmore, List.mem_append] at hfile
  exact hfile.elim (hcurrent file) (hread file)

end Extends

/-- A project whose files are as on disk shows what one without files does. -/
theorem sameView_of_current (hcurrent : Current fs P) (hnew : Q.files = [])
    (hbase : P.base = Q.base) (haliases : P.aliases = Q.aliases) : SameView fs P Q :=
  Extends.sameView (P := Q) ⟨hbase, haliases, P.files, by rw [hnew, List.nil_append], hcurrent⟩

/-! ## Reading a file -/

theorem extends_keeping (hfile : P.fileAt fs path = .ok file) : Extends fs P (P.keeping file) := by
  have hpath := path_of_fileAt hfile
  unfold keeping
  split
  · exact .refl fs P
  · next hnew =>
      refine ⟨rfl, rfl, [file], rfl, fun other hother => ?_⟩
      rw [List.mem_singleton.mp hother]
      rw [hpath, Option.not_isSome_iff_eq_none] at hnew
      simp only [fileAt, hnew] at hfile
      split at hfile
      · next source hsource =>
          injection hfile with hfile
          exact hfile ▸ hsource
      · cases hfile

theorem isSome_file?_keeping (P : Project) (file : ParsedFile) :
    ((P.keeping file).file? file.path).isSome := by
  unfold keeping
  split
  · assumption
  · simp [file?]

/-- Adding a file gives the one that the project shows at its canonical path. -/
theorem add_eq (P : Project) (fs : FileSystem) (path : Path) :
    P.add fs path =
      match fs.canonical path with
      | .error e => .error e
      | .ok path =>
        match P.fileAt fs path with
        | .error e => .error e
        | .ok file => .ok (file, P.keeping file) := by
  unfold add
  cases hcanonical : fs.canonical path with
  | error e => rfl
  | ok path =>
      cases hkept : P.file? path with
      | some file =>
          simp [bind, Except.bind, fileAt, keeping, hkept, path_of_file? hkept, pure, Except.pure]
      | none =>
          cases hread : fs.read path with
          | error e => simp [bind, Except.bind, fileAt, hkept, hread, throw, throwThe,
              MonadExceptOf.throw]
          | ok source =>
              have hpath : (ParsedFile.ofSource path source).path = path := rfl
              simp [bind, Except.bind, fileAt, keeping, hkept, hread, hpath, pure, Except.pure]

/-- Which file a module name stands for depends on the aliases only. -/
theorem SameView.moduleFor?_eq (hview : SameView fs P Q) (importer : ParsedFile)
    (specifier : String) :
    P.moduleFor? fs importer specifier = Q.moduleFor? fs importer specifier := by
  unfold moduleFor? moduleStems
  rw [hview.base_eq, hview.aliases_eq]

end Project

end ComponentDocs
