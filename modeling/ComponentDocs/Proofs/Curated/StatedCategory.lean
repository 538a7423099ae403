import ComponentDocs.Override.Format

/-!
# Stated categories

Whatever an override file holds, the record that it states is in a known category or in none: the
category is checked after all entries have been read, so no spelling of its key gets past the check
(`category_of_curatedFor`).
-/

namespace ComponentDocs

namespace Curated

variable {source : String} {c : Curated} {notes : List Diagnostic}

theorem Reading.run_bind {α β : Type} (x : Reading α) (f : α → Reading β)
    (notes : List Diagnostic) :
    (x >>= f).run notes =
      match x.run notes with
      | (.ok a, notes) => (f a).run notes
      | (.error e, notes) => (.error e, notes) := by
  change (match x.run notes with | (result, notes) => ExceptT.bindCont f result notes) = _
  rcases x.run notes with ⟨_ | _, _⟩ <;> rfl

/-- A known category passes the check. -/
theorem checkCategory_run_of_mem {category : String} (hc : c.category = some category)
    (hcategory : category ∈ categories) :
    (checkCategory source c).run notes = (.ok c, notes) := by
  have hknown : categories.contains category = true := List.contains_iff_mem.mpr hcategory
  unfold checkCategory
  rw [hc]
  dsimp only
  rw [if_pos hknown]
  rfl

/-- What has passed the check is in a known category or in none. -/
theorem mem_of_checkCategory {checked : Curated}
    (hchecked : ((checkCategory source c).run notes).1 = .ok checked) :
    ∀ category ∈ checked.category, category ∈ categories := by
  unfold checkCategory at hchecked
  cases hc : c.category with
  | none =>
      rw [hc] at hchecked
      cases hchecked
      simp [hc]
  | some stated =>
      rw [hc] at hchecked
      dsimp only at hchecked
      by_cases hknown : categories.contains stated = true
      · rw [if_pos hknown] at hchecked
        cases hchecked
        simpa [hc] using hknown
      · rw [if_neg hknown] at hchecked
        cases hchecked
        simp

theorem mem_of_parse {entries : List (Datum × Datum)} {checked : Curated}
    (hparsed : (parse source entries).1 = .ok checked) :
    ∀ category ∈ checked.category, category ∈ categories := by
  rw [parse, read, Reading.run_bind] at hparsed
  rcases hread : (entries.foldlM (addEntry source) {}).run [] with ⟨e | c, notes⟩
  · rw [hread] at hparsed
    cases hparsed
  · rw [hread] at hparsed
    exact mem_of_checkCategory hparsed

end Curated

variable {fs : FileSystem} {component : Path} {curated : Curated}

theorem OverrideFormat.category_of_loadFile {format : OverrideFormat} {path : Path}
    (hloaded : (format.loadFile fs path).1 = .ok curated) :
    ∀ category ∈ curated.category, category ∈ categories := by
  unfold loadFile at hloaded
  split at hloaded
  · cases hloaded
  · next entries _ =>
      split at hloaded
      · next parsed notes hparsed =>
          injection hloaded with hloaded
          exact hloaded ▸ Curated.mem_of_parse (congrArg Prod.fst hparsed)
      · cases hloaded
  · cases hloaded

/-- **No override file puts a component into an unknown category.** -/
theorem category_of_curatedFor {formats : List OverrideFormat}
    (hcurated : (curatedFor fs component formats).1 = .ok curated) :
    ∀ category ∈ curated.category, category ∈ categories := by
  induction formats with
  | nil =>
      cases hcurated
      simp
  | cons format rest ih =>
      rw [curatedFor] at hcurated
      cases hpath : format.path? fs component with
      | error e =>
          rw [hpath] at hcurated
          cases hcurated
      | ok found =>
          rw [hpath] at hcurated
          cases found with
          | none => exact ih hcurated
          | some path =>
              dsimp only at hcurated
              rcases hloaded : format.loadFile fs path with ⟨e | loaded, notes⟩
              · rw [hloaded] at hcurated
                cases hcurated
                simp
              · rw [hloaded] at hcurated
                cases hcurated
                exact OverrideFormat.category_of_loadFile (congrArg Prod.fst hloaded)

end ComponentDocs
