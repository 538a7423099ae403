import ComponentDocs.Proofs.Files.Agreement

/-!
# Files at the same places

Two file systems have their files at the same places if they have the same directories and the same
files in them, whatever the files hold.  A path then leads to a file in both or in neither
(`SamePlaces.isFile_eq`).  Writing over a file changes no place (`samePlaces_write`).
-/

namespace ComponentDocs

namespace Entry

/-- Whether an entry is a file. -/
def isFile : Entry → Bool
  | file .. => true
  | directory .. => false

/-- What following segments shows, the bytes and the time left out, depends on the places alone. -/
theorem view_isSome_congr {top other : Entry}
    (hsame : ∀ place, (top.at? place).map isFile = (other.at? place).map isFile)
    (place segments : List String) :
    (view top place segments).map (·.1.isSome) = (view other place segments).map (·.1.isSome) := by
  induction segments generalizing place with
  | nil =>
      have hplace := hsame place
      rw [view, view]
      cases htop : top.at? place with
      | none =>
          rw [htop] at hplace
          rw [Option.map_eq_none_iff.mp hplace.symm]
      | some entry =>
          obtain ⟨found, hfound, hkind⟩ := Option.map_eq_some_iff.mp (htop ▸ hplace).symm
          rw [hfound]
          cases entry <;> cases found <;> first | rfl | cases hkind
  | cons segment rest ih =>
      have hplace := hsame place
      rw [view_cons, view_cons]
      cases htop : top.at? place with
      | none =>
          rw [htop] at hplace
          rw [Option.map_eq_none_iff.mp hplace.symm]
          rfl
      | some entry =>
          obtain ⟨found, hfound, hkind⟩ := Option.map_eq_some_iff.mp (htop ▸ hplace).symm
          rw [hfound]
          cases entry with
          | file =>
              cases found with
              | file => rfl
              | directory => cases hkind
          | directory =>
              cases found with
              | file => cases hkind
              | directory =>
                  dsimp only [Option.map_some, surface]
                  split
                  · exact ih _
                  · split
                    · rfl
                    · exact ih _

end Entry

namespace FileSystem

/-- Two file systems have the same directories, and files at the same places. -/
structure SamePlaces (fs gs : FileSystem) : Prop where
  current_eq : gs.current = fs.current
  isFile_at? : ∀ place : List String,
    (gs.top.at? place).map Entry.isFile = (fs.top.at? place).map Entry.isFile

variable {fs gs : FileSystem} {p : Path}

namespace SamePlaces

theorem resolve_eq (hsame : SamePlaces fs gs) (p : Path) : gs.resolve p = fs.resolve p := by
  simp only [resolve, absolute, currentPath, hsame.current_eq]

theorem isFile_eq (hsame : SamePlaces fs gs) (p : Path) : gs.isFile p = fs.isFile p := by
  have habsolute : gs.absolute p = fs.absolute p := by
    simp only [absolute, currentPath, hsame.current_eq]
  have hlookup : ((gs.lookup p).map Entry.surface).map (·.1.isSome) =
      ((fs.lookup p).map Entry.surface).map (·.1.isSome) := by
    unfold lookup
    by_cases hlimit : pathLimit < p.toString.utf8ByteSize
    · rw [if_pos hlimit, if_pos hlimit]
    · rw [if_neg hlimit, if_neg hlimit, habsolute, Entry.follow_eq_view .start,
        Entry.follow_eq_view .start]
      exact Entry.view_isSome_congr hsame.isFile_at? _ _
  rw [isFile_eq_surface, isFile_eq_surface]
  generalize (gs.lookup p).map Entry.surface = there at hlookup ⊢
  generalize (fs.lookup p).map Entry.surface = here at hlookup ⊢
  cases there with
  | error problem =>
      cases here with
      | error other =>
          obtain rfl := Except.error.inj hlookup
          rfl
      | ok => cases hlookup
  | ok =>
      cases here with
      | error => cases hlookup
      | ok => exact congrArg Except.ok (Except.ok.inj hlookup)

theorem firstFile_eq (hsame : SamePlaces fs gs) (paths : List Path) :
    gs.firstFile paths = fs.firstFile paths := by
  induction paths with
  | nil => rfl
  | cons path rest ih => rw [firstFile, firstFile, hsame.isFile_eq, ih]

end SamePlaces

end FileSystem

namespace Entry

/-- Putting a file where one stands changes no place. -/
theorem isFile_at?_put {segments : List String} {top : Entry} {content : List UInt8} {time : Int}
    (hfile : top.at? segments = some (.file content time)) (bytes : List UInt8) (changed : Int)
    (place : List String) :
    ((put (.file bytes changed) segments top).at? place).map isFile =
      (top.at? place).map isFile := by
  induction segments generalizing top place with
  | nil =>
      obtain rfl := Option.some.inj hfile
      cases place <;> rfl
  | cons name rest ih =>
      obtain ⟨below, hbelow, hrest⟩ := Option.bind_eq_some_iff.mp hfile
      cases top with
      | file => cases hbelow
      | directory time' children =>
          cases place with
          | nil => rfl
          | cons first more =>
              show (((setChild name _ children).lookup first).bind (at? more)).map isFile =
                ((children.lookup first).bind (at? more)).map isFile
              by_cases hfirst : first = name
              · subst hfirst
                have hlookup : children.lookup first = some below := hbelow
                rw [lookup_setChild_self, hlookup, hbelow]
                exact ih hrest more
              · rw [lookup_setChild_of_ne hfirst]

end Entry

/-- Writing over a file changes no place. -/
theorem FileSystem.samePlaces_write {fs : FileSystem} {p : Path} {content : List UInt8} {time : Int}
    (hfile : fs.top.at? (fs.resolve p).segments = some (.file content time)) (bytes : List UInt8)
    (changed : Int) : SamePlaces fs (fs.write p bytes changed) where
  current_eq := rfl
  isFile_at? := Entry.isFile_at?_put hfile bytes changed

end ComponentDocs
