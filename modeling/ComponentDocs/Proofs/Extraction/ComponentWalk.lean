import ComponentDocs.Proofs.Extraction.InheritanceGraph

/-!
# The walk of one component

Extraction of a component reads its file, looks for the props declaration and walks from there.
The equations of this module take `properties` apart into these parts, so that everything else is
said of the walk alone.
-/

namespace ComponentDocs.Extraction

open Source Project

variable {fs : FileSystem} {namespaces : List String} {selection : PropertySelection}
  {P : Project} {path : Path} {given : String} {file : ParsedFile} {declaration : Declaration}

/-- The props declaration of the component that a file defines. -/
def propsDeclaration? (file : ParsedFile) : Option Declaration :=
  (propsName? file).bind file.declaration?

/-- The props declaration of the component at a path, in the file that the project shows. -/
def propsNode? (fs : FileSystem) (P : Project) (path : Path) : Option Node :=
  match P.add fs path with
  | .ok (file, _) => (propsDeclaration? file).map (file, ·)
  | .error _ => none

/-- What the extraction of the component in a file goes by. -/
def settingFor (namespaces : List String) (selection : PropertySelection) (file : ParsedFile)
    (declaration : Declaration) : Setting where
  selection := selection
  namespaces := namespaces
  defaults :=
    if selection.defaultValues then
      statedDefaults file (componentName file.path) declaration.name
    else []

/-- What the end of a walk makes of it: a fault is reported and leaves no properties. -/
def outcome (given : String) :
    Except Fault (List Property) × Walk → List Property × Project × List Diagnostic
  | (.ok found, w) => (found, w.project, w.diagnostics)
  | (.error e, w) =>
    ([], w.project,
      w.diagnostics ++ [⟨given, .error, "Error extracting props: " ++ e.message⟩])

/-- The walk through the properties of a file that the project shows. -/
def walkOf (fs : FileSystem) (namespaces : List String) (selection : PropertySelection)
    (P : Project) (given : String) (file : ParsedFile) : Except Fault (List Property) × Walk :=
  (fileProperties fs namespaces selection given file).run ⟨P.keeping file, [], []⟩

theorem declaration?_of_propsDeclaration? (hprops : propsDeclaration? file = some declaration) :
    file.declaration? declaration.name = some declaration := by
  obtain ⟨name, _, hdeclaration⟩ := Option.bind_eq_some_iff.mp hprops
  have hname : declaration.name = name := by simpa using List.find?_some hdeclaration
  rw [hname, hdeclaration]

theorem propsNode?_eq_some (hpath : path.Settled) (hfile : P.fileAt fs path = .ok file)
    (hprops : propsDeclaration? file = some declaration) :
    propsNode? fs P path = some (file, declaration) := by
  simp only [propsNode?, add_eq, FileSystem.canonical_of_settled hpath, hfile, hprops,
    Option.map_some]

/-- The props declaration that is found is shown by the project. -/
theorem shown_of_propsNode? {n : Node} (hprops : propsNode? fs P path = some n) :
    ∃ place, fs.canonical path = .ok place ∧ P.fileAt fs place = .ok n.1 ∧
      propsDeclaration? n.1 = some n.2 ∧ Shown P fs n := by
  rw [propsNode?, add_eq] at hprops
  cases hplace : fs.canonical path with
  | error e => simp [hplace] at hprops
  | ok place =>
      cases hfile : P.fileAt fs place with
      | error e => simp [hplace, hfile] at hprops
      | ok file =>
          simp only [hplace, hfile, Option.map_eq_some_iff] at hprops
          obtain ⟨declaration, hdeclaration, rfl⟩ := hprops
          obtain rfl := path_of_fileAt hfile
          have hshown : ShownFile P fs file := ⟨FileSystem.settled_of_canonical hplace, hfile⟩
          exact ⟨_, rfl, hfile, hdeclaration,
            hshown.shown (declaration?_of_propsDeclaration? hdeclaration)⟩

theorem properties_eq (fs : FileSystem) (namespaces : List String)
    (selection : PropertySelection) (P : Project) (path : Path) (given : String) :
    properties fs namespaces selection P path given =
      outcome given
        (match fs.canonical path with
        | .error e => (.error e, ⟨P, [], []⟩)
        | .ok path =>
          match P.fileAt fs path with
          | .error e => (.error e, ⟨P, [], []⟩)
          | .ok file => walkOf fs namespaces selection P given file) := by
  unfold properties
  dsimp only
  rw [Walking.run_bind, Walking.run_load]
  cases fs.canonical path with
  | error e => rfl
  | ok path =>
      dsimp only
      cases P.fileAt fs path with
      | error e => rfl
      | ok file =>
          dsimp only [walkOf]
          rcases (fileProperties fs namespaces selection given file).run ⟨P.keeping file, [], []⟩
            with ⟨_ | _, _⟩ <;> rfl

private theorem fileProperties_eq (fs : FileSystem) (namespaces : List String)
    (selection : PropertySelection) (given : String) (file : ParsedFile) :
    fileProperties fs namespaces selection given file =
      match propsDeclaration? file with
      | some declaration =>
        sortProperties <$>
          inherited fs (settingFor namespaces selection file declaration) file declaration
      | none => do
        modify (Walking.noting · ⟨given, .warning, "No Props declaration found"⟩)
        return [] := by
  unfold fileProperties propsDeclaration?
  cases hname : propsName? file with
  | none => rfl
  | some name =>
      rw [Option.bind_some, Option.bind_some]
      cases hdeclaration : file.declaration? name with
      | none => rfl
      | some declaration =>
          have hsame : declaration.name = name := by simpa using List.find?_some hdeclaration
          subst hsame
          exact (map_eq_pure_bind _ _).symm

/-- Without a props declaration there is nothing to walk through. -/
theorem walkOf_of_none (hprops : propsDeclaration? file = none) :
    walkOf fs namespaces selection P given file =
      (.ok [], ⟨P.keeping file, [], [⟨given, .warning, "No Props declaration found"⟩]⟩) := by
  unfold walkOf
  rw [fileProperties_eq, hprops]
  rfl

/-- The walk from the props declaration; its properties are sorted at the end. -/
theorem walkOf_of_some (hprops : propsDeclaration? file = some declaration) :
    walkOf fs namespaces selection P given file =
      (((expand fs (settingFor namespaces selection file declaration)
          (declarationBound fs (P.keeping file) + 1) [] file declaration).run
            ⟨P.keeping file, [], []⟩).1.map sortProperties,
        ((expand fs (settingFor namespaces selection file declaration)
          (declarationBound fs (P.keeping file) + 1) [] file declaration).run
            ⟨P.keeping file, [], []⟩).2) := by
  unfold walkOf
  rw [fileProperties_eq, hprops]
  dsimp only
  rw [Walking.run_map, inherited, Walking.run_bind, Walking.run_get]

/-- Extraction walks from the props declaration, if there is one. -/
theorem properties_of_propsNode? {n : Node} (hprops : propsNode? fs P path = some n) :
    properties fs namespaces selection P path given =
      outcome given
        (((expand fs (settingFor namespaces selection n.1 n.2)
            (declarationBound fs (P.keeping n.1) + 1) [] n.1 n.2).run
              ⟨P.keeping n.1, [], []⟩).1.map sortProperties,
          ((expand fs (settingFor namespaces selection n.1 n.2)
            (declarationBound fs (P.keeping n.1) + 1) [] n.1 n.2).run
              ⟨P.keeping n.1, [], []⟩).2) := by
  obtain ⟨place, hplace, hfile, hdeclaration, -⟩ := shown_of_propsNode? hprops
  rw [properties_eq, hplace]
  dsimp only
  rw [hfile]
  dsimp only
  rw [walkOf_of_some hdeclaration]

/-- Without inherited properties nothing but the props declaration counts. -/
theorem properties_direct {n : Node} (hdirect : selection.inheritedProperties = false)
    (hprops : propsNode? fs P path = some n) :
    properties fs namespaces selection P path given =
      (sortProperties (listed (settingFor namespaces selection n.1 n.2) [n]), P.keeping n.1, []) := by
  have hsetting : (settingFor namespaces selection n.1 n.2).selection = selection := rfl
  rw [properties_of_propsNode? hprops, expand_run, if_neg List.not_mem_nil,
    if_neg List.not_mem_nil, hsetting, hdirect, listed, List.flatMap_singleton]
  rfl

/-- Without a props declaration, extraction does not depend on what is selected. -/
theorem properties_of_propsNode?_eq_none (hprops : propsNode? fs P path = none) :
    (properties fs namespaces selection P path given).1 = [] ∧
      ∀ other, properties fs namespaces other P path given =
        properties fs namespaces selection P path given := by
  rw [propsNode?, add_eq] at hprops
  simp only [properties_eq]
  cases hplace : fs.canonical path with
  | error e => exact ⟨rfl, fun _ => rfl⟩
  | ok place =>
      dsimp only
      cases hfile : P.fileAt fs place with
      | error e => exact ⟨rfl, fun _ => rfl⟩
      | ok file =>
          simp only [hplace, hfile, Option.map_eq_none_iff] at hprops
          dsimp only
          refine ⟨?_, fun other => ?_⟩
          · rw [walkOf_of_none hprops, outcome]
          · rw [walkOf_of_none hprops, walkOf_of_none hprops]

end ComponentDocs.Extraction
