import ComponentDocs.Proofs.Extraction.View

/-!
# The steps of a walk

One equation for each step that a walk is made of: running one step after another, reporting,
reading a file, and finding the declaration that a base type stands for.  What a base stands for
(`resolution`) is a function of what the project shows; finding it reads at most one more file
(`resolveBase_run`), and reports what is to be mentioned of a base that stands for nothing
(`mentions`).
-/

namespace ComponentDocs.Extraction

open Source Project

/-! ## Running -/

namespace Walking

variable {α β : Type}

@[simp] theorem run_pure (a : α) (w : Walk) : (pure a : Walking α).run w = (.ok a, w) := rfl

@[simp] theorem run_get (w : Walk) : (get : Walking Walk).run w = (.ok w, w) := rfl

@[simp] theorem run_modify (f : Walk → Walk) (w : Walk) :
    (modify f : Walking Unit).run w = (.ok (), f w) := rfl

theorem run_bind (m : Walking α) (f : α → Walking β) (w : Walk) :
    (m >>= f).run w =
      match m.run w with
      | (.ok a, after) => (f a).run after
      | (.error e, after) => (.error e, after) := by
  change (match m.run w with | (result, after) => ExceptT.bindCont f result after) = _
  rcases m.run w with ⟨_ | _, _⟩ <;> rfl

theorem run_map (f : α → β) (m : Walking α) (w : Walk) :
    (f <$> m).run w = ((m.run w).1.map f, (m.run w).2) := by
  rw [map_eq_pure_bind, run_bind]
  rcases m.run w with ⟨_ | _, _⟩ <;> rfl

/-- A mapped end is a success if and only if the end itself is one. -/
theorem mapped_eq_ok_iff {r : Except Fault α × Walk} {f : α → β} {b : β} {after : Walk} :
    (r.1.map f, r.2) = (.ok b, after) ↔ ∃ a, r = (.ok a, after) ∧ f a = b := by
  obtain ⟨_ | a, last⟩ := r
  · simp [Except.map]
  · simp [Except.map, and_comm]

/-- A walk with a diagnostic reported. -/
def noting (w : Walk) (d : Diagnostic) : Walk := { w with diagnostics := w.diagnostics ++ [d] }

/-- A walk with a declaration marked as expanded. -/
def marking (w : Walk) (key : DeclarationKey) : Walk := { w with expanded := w.expanded ++ [key] }

theorem run_load (fs : FileSystem) (path : Path) (w : Walk) :
    (load fs path).run w =
      match fs.canonical path with
      | .error e => (.error e, w)
      | .ok path =>
        match w.project.fileAt fs path with
        | .error e => (.error e, w)
        | .ok file => (.ok file, { w with project := w.project.keeping file }) := by
  unfold load
  rw [run_bind, run_get]
  dsimp only
  rw [add_eq]
  cases fs.canonical path with
  | error e => rfl
  | ok path =>
      dsimp only
      cases w.project.fileAt fs path <;> rfl

end Walking

/-! ## Finding bases -/

/-- What an imported name stands for in the files that a project shows. -/
def resolutionOfImport (P : Project) (fs : FileSystem) (file : ParsedFile)
    (specifier exported : String) : Except Fault (Option (ParsedFile × Declaration)) :=
  match P.moduleFor? fs file specifier with
  | .error e => .error e
  | .ok none => .ok none
  | .ok (some path) =>
    match P.fileAt fs path with
    | .error e => .error e
    | .ok target => .ok ((target.declaration? exported).map (target, ·))

/-- What a base stands for in the files that a project shows: a declaration of the same file, else
an imported one, else nothing. -/
def resolution (P : Project) (fs : FileSystem) (file : ParsedFile) :
    BaseType → Except Fault (Option (ParsedFile × Declaration))
  | .qualifiedGeneric => .ok none
  | .qualified _ => .ok none
  | .named name =>
    match file.declaration? name with
    | some declaration => .ok (some (file, declaration))
    | none =>
      match file.import? name with
      | some (specifier, exported) => resolutionOfImport P fs file specifier exported
      | none => .ok none

private theorem settled_of_firstModule {fs : FileSystem} {path : Path} {bases : List Path}
    (hfound : firstModule fs bases = .ok (some path)) : path.Settled := by
  induction bases with
  | nil => cases hfound
  | cons base rest ih =>
      simp only [firstModule, bind, Except.bind] at hfound
      cases hcandidates : candidates base with
      | error e => simp [hcandidates] at hfound
      | ok paths =>
          cases hfirst : fs.firstFile paths with
          | error e => simp [hcandidates, hfirst] at hfound
          | ok first =>
              cases first with
              | none =>
                  simp only [hcandidates, hfirst] at hfound
                  exact ih hfound
              | some candidate =>
                  simp only [hcandidates, hfirst, pure, Except.pure, Except.ok.injEq,
                    Option.some.injEq] at hfound
                  exact hfound ▸ FileSystem.settled_resolve fs candidate

/-- A module name stands for a canonical path. -/
theorem settled_of_moduleFor? {P : Project} {fs : FileSystem} {file : ParsedFile}
    {specifier : String} {path : Path} (hpath : P.moduleFor? fs file specifier = .ok (some path)) :
    path.Settled :=
  settled_of_firstModule hpath

/-- Projects that show the same files resolve bases alike. -/
theorem resolution_congr {fs : FileSystem} {P Q : Project} (hview : SameView fs P Q)
    (file : ParsedFile) (base : BaseType) :
    resolution P fs file base = resolution Q fs file base := by
  unfold resolution resolutionOfImport
  simp only [hview.moduleFor?_eq, hview.fileAt_eq]

private theorem resolveImport_run (fs : FileSystem) (file : ParsedFile)
    (name specifier exported : String) (w : Walk) :
    ∃ after, (resolveImport fs file name specifier exported).run w =
        (resolutionOfImport w.project fs file specifier exported, after) ∧
      Extends fs w.project after.project ∧ after.expanded = w.expanded := by
  unfold resolveImport resolutionOfImport
  rw [Walking.run_bind, Walking.run_get]
  dsimp only
  cases hmodule : w.project.moduleFor? fs file specifier with
  | error e => exact ⟨w, rfl, .refl _ _, rfl⟩
  | ok found =>
      cases found with
      | none => exact ⟨_, rfl, .refl _ _, rfl⟩
      | some path =>
          dsimp only
          rw [Walking.run_bind, Walking.run_load,
            FileSystem.canonical_of_settled (settled_of_moduleFor? hmodule)]
          dsimp only
          cases hfile : w.project.fileAt fs path with
          | error e => exact ⟨w, rfl, .refl _ _, rfl⟩
          | ok target =>
              dsimp only
              cases hdeclaration : target.declaration? exported with
              | none => exact ⟨_, rfl, extends_keeping hfile, rfl⟩
              | some declaration => exact ⟨_, rfl, extends_keeping hfile, rfl⟩

/-- Finding a base gives what it stands for and reads at most one more file. -/
theorem resolveBase_run (fs : FileSystem) (file : ParsedFile) (base : BaseType) (w : Walk) :
    ∃ after, (resolveBase fs file base).run w = (resolution w.project fs file base, after) ∧
      Extends fs w.project after.project ∧ after.expanded = w.expanded := by
  cases base with
  | qualifiedGeneric => exact ⟨w, rfl, .refl _ _, rfl⟩
  | qualified text => exact ⟨_, rfl, .refl _ _, rfl⟩
  | named name =>
      unfold resolveBase resolution
      dsimp only
      cases hlocal : file.declaration? name with
      | some declaration => exact ⟨w, rfl, .refl _ _, rfl⟩
      | none =>
          cases himport : file.import? name with
          | none => exact ⟨_, rfl, .refl _ _, rfl⟩
          | some source => exact resolveImport_run fs file name source.1 source.2 w

/-! ## What is reported on the way -/

/-- What is mentioned of a base that is found in another module, or is not. -/
def mentionsOfImport (P : Project) (fs : FileSystem) (file : ParsedFile)
    (name specifier exported : String) : List Diagnostic :=
  match P.moduleFor? fs file specifier with
  | .error _ => []
  | .ok none =>
    [⟨file.path.toString, .info,
      "Base type " ++ name ++ " comes from unresolved module " ++ specifier⟩]
  | .ok (some path) =>
    match P.fileAt fs path with
    | .error _ => []
    | .ok target =>
      match target.declaration? exported with
      | some _ => []
      | none =>
        [⟨path.toString, .info, "Base type " ++ exported ++ " not declared in module"⟩]

/-- What is mentioned of a base that stands for nothing. -/
def mentions (P : Project) (fs : FileSystem) (file : ParsedFile) : BaseType → List Diagnostic
  | .qualifiedGeneric => []
  | .qualified text => [⟨file.path.toString, .info, "Skipping namespaced base type " ++ text⟩]
  | .named name =>
    match file.declaration? name with
    | some _ => []
    | none =>
      match file.import? name with
      | some (specifier, exported) => mentionsOfImport P fs file name specifier exported
      | none =>
        [⟨file.path.toString, .info, "Base type " ++ name ++ " is not declared locally"⟩]

/-- Projects that show the same files have the same to mention. -/
theorem mentions_congr {fs : FileSystem} {P Q : Project} (hview : SameView fs P Q)
    (file : ParsedFile) (base : BaseType) : mentions P fs file base = mentions Q fs file base := by
  unfold mentions mentionsOfImport
  simp only [hview.moduleFor?_eq, hview.fileAt_eq]

/-- What is mentioned is neither a warning nor an error. -/
theorem severity_of_mem_mentions {P : Project} {fs : FileSystem} {file : ParsedFile}
    {base : BaseType} {d : Diagnostic} (hd : d ∈ mentions P fs file base) : d.severity = .info := by
  unfold mentions mentionsOfImport at hd
  repeat' split at hd
  -- a branch mentions nothing, or one thing
  all_goals first
    | exact absurd hd List.not_mem_nil
    | exact List.mem_singleton.mp hd ▸ rfl

private theorem diagnostics_resolveImport (fs : FileSystem) (file : ParsedFile)
    (name specifier exported : String) (w : Walk) :
    ((resolveImport fs file name specifier exported).run w).2.diagnostics =
      w.diagnostics ++ mentionsOfImport w.project fs file name specifier exported := by
  unfold resolveImport mentionsOfImport
  rw [Walking.run_bind, Walking.run_get]
  dsimp only
  cases hmodule : w.project.moduleFor? fs file specifier with
  | error e => exact (List.append_nil _).symm
  | ok found =>
      cases found with
      | none => rfl
      | some path =>
          dsimp only
          rw [Walking.run_bind, Walking.run_load,
            FileSystem.canonical_of_settled (settled_of_moduleFor? hmodule)]
          dsimp only
          cases w.project.fileAt fs path with
          | error e => exact (List.append_nil _).symm
          | ok target =>
              dsimp only
              cases target.declaration? exported with
              | none => rfl
              | some declaration => exact (List.append_nil _).symm

/-- Finding a base reports what is to be mentioned of it, and nothing else. -/
theorem diagnostics_resolveBase (fs : FileSystem) (file : ParsedFile) (base : BaseType) (w : Walk) :
    ((resolveBase fs file base).run w).2.diagnostics =
      w.diagnostics ++ mentions w.project fs file base := by
  cases base with
  | qualifiedGeneric => exact (List.append_nil _).symm
  | qualified text => rfl
  | named name =>
      unfold resolveBase mentions
      dsimp only
      cases file.declaration? name with
      | some declaration => exact (List.append_nil _).symm
      | none =>
          cases file.import? name with
          | none => rfl
          | some source => exact diagnostics_resolveImport fs file name source.1 source.2 w

/-- Finding a base reports neither a warning nor an error. -/
theorem filter_diagnostics_resolveBase (fs : FileSystem) (file : ParsedFile) (base : BaseType)
    (w : Walk) {severity : Severity} (hinfo : severity ≠ .info) :
    ((resolveBase fs file base).run w).2.diagnostics.filter (·.severity = severity) =
      w.diagnostics.filter (·.severity = severity) := by
  have hnone : (mentions w.project fs file base).filter (·.severity = severity) = [] := by
    refine List.filter_eq_nil_iff.mpr fun d hd => ?_
    rw [severity_of_mem_mentions hd, decide_eq_true_eq]
    exact hinfo.symm
  rw [diagnostics_resolveBase, List.filter_append, hnone, List.append_nil]

end ComponentDocs.Extraction
