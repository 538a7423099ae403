import ComponentDocs.Datum

/-!
# Texts as keys

A text is the same key as that text alone, so looking up a text in a mapping finds the first entry
with just this key.
-/

namespace ComponentDocs.Datum

variable {key value : Datum} {s t : String} {entries before after : List (Datum × Datum)}

theorem eq_text_of_sameKey (hkey : sameKey key (.text s)) : key = .text s := by
  cases key with
  | text t => simpa [sameKey] using hkey
  | float x =>
      simp only [sameKey, fraction?] at hkey
      split at hkey <;> simp_all
  | _ => simp [sameKey, fraction?] at hkey

theorem sameKey_text : sameKey (.text t) (.text s) = (t == s) := by
  rw [sameKey]

theorem find?_append_cons :
    find? (.text s) (before ++ (.text t, value) :: after) =
      (find? (.text s) before).or (if t = s then some value else find? (.text s) after) := by
  rw [find?, find?, find?, List.find?_append, List.find?_cons]
  dsimp only
  rw [sameKey_text]
  cases before.find? fun entry => sameKey entry.1 (.text s) with
  | some entry => simp
  | none =>
      by_cases hsame : t = s
      · simp [hsame]
      · simp [hsame, beq_false_of_ne hsame]

/-- What is found under a text is the value of the first entry with that key. -/
theorem exists_of_find?_eq_some (hfound : find? (.text s) entries = some value) :
    ∃ before after, entries = before ++ (.text s, value) :: after ∧
      find? (.text s) before = none := by
  obtain ⟨⟨key, found⟩, hentry, rfl⟩ := Option.map_eq_some_iff.mp hfound
  obtain ⟨hkey, before, after, rfl, hbefore⟩ := List.find?_eq_some_iff_append.mp hentry
  obtain rfl := eq_text_of_sameKey hkey
  refine ⟨before, after, rfl, ?_⟩
  rw [find?, Option.map_eq_none_iff, List.find?_eq_none]
  exact fun entry h => by simpa using hbefore entry h

end ComponentDocs.Datum
