import Mathlib.Data.List.Nodup
import ComponentDocs.RecordStore

/-!
# Looking up records

What is found under a key after a record has been stored under it or removed, and what this does to
the order of the keys.
-/

namespace ComponentDocs.RecordStore

variable {φ : Type} {store : RecordStore φ} {key other : String} {record : ComponentRecord}
  {print : φ} {entry : StoredRecord φ}

/-! ## What is found -/

theorem contains_iff : store.contains key ↔ key ∈ store.keys := by
  simp [contains, find?, keys]

theorem find?_insert_self :
    (store.insert key record print).find? key = some ⟨key, record, print⟩ := by
  unfold insert find?
  by_cases hkey : store.contains key
  · -- the entry takes the place of the first one with its key
    rw [contains, find?, List.find?_isSome] at hkey
    simp only [contains, find?, List.find?_isSome.mpr hkey, if_true]
    generalize store.entries = entries at hkey ⊢
    induction entries with
    | nil => simp at hkey
    | cons entry rest ih =>
        by_cases hentry : entry.key = key
        · simp [hentry]
        · simp only [List.map_cons, if_neg hentry]
          rw [List.find?_cons_of_neg (by simpa using hentry)]
          exact ih (by simpa [hentry] using hkey)
  · have hnew : store.entries.find? (·.key = key) = none := by
      rw [contains, find?, Option.not_isSome_iff_eq_none] at hkey
      exact hkey
    simp [hkey, List.find?_append, hnew]

theorem find?_insert_of_ne (hother : other ≠ key) :
    (store.insert key record print).find? other = store.find? other := by
  unfold insert find?
  by_cases hkey : store.contains key
  · simp only [hkey, if_true]
    generalize store.entries = entries
    induction entries with
    | nil => rfl
    | cons entry rest ih =>
        rw [List.map_cons, List.find?_cons, List.find?_cons, ih]
        by_cases hentry : entry.key = key
        · simp [hentry, Ne.symm hother]
        · simp [hentry]
  · simp [hkey, List.find?_append, Ne.symm hother]

theorem find?_erase_self : (store.erase key).find? key = none := by
  simp [erase, find?]

theorem find?_erase_of_ne (hother : other ≠ key) :
    (store.erase key).find? other = store.find? other := by
  unfold erase find?
  rw [List.find?_filter]
  congr 1
  funext entry
  by_cases hentry : entry.key = other <;> simp [hentry, hother]

theorem get?_insert_self : (store.insert key record print).get? key = some record := by
  rw [get?, find?_insert_self, Option.map_some]

theorem get?_insert_of_ne (hother : other ≠ key) :
    (store.insert key record print).get? other = store.get? other := by
  rw [get?, get?, find?_insert_of_ne hother]

theorem find?_eq_none_iff : store.find? key = none ↔ key ∉ store.keys := by
  rw [← contains_iff, contains, Option.not_isSome_iff_eq_none]

/-! ## Entries -/

theorem exists_entry_of_get? (hrecord : store.get? key = some record) :
    ∃ entry ∈ store.entries, entry.key = key ∧ entry.record = record := by
  obtain ⟨entry, hentry, hrecord⟩ := Option.map_eq_some_iff.mp hrecord
  exact ⟨entry, List.mem_of_find?_eq_some hentry, by simpa using List.find?_some hentry, hrecord⟩

/-- Keeping a record adds one entry and nothing else. -/
theorem mem_insert (hentry : entry ∈ (store.insert key record print).entries) :
    entry ∈ store.entries ∨ entry = ⟨key, record, print⟩ := by
  unfold insert at hentry
  dsimp only at hentry
  split at hentry
  · obtain ⟨other, hother, rfl⟩ := List.mem_map.mp hentry
    split
    · exact .inr rfl
    · exact .inl hother
  · simpa using hentry

theorem mem_erase (hentry : entry ∈ (store.erase key).entries) : entry ∈ store.entries :=
  List.mem_of_mem_filter hentry

/-! ## Keys and records -/

theorem keys_insert :
    (store.insert key record print).keys =
      if key ∈ store.keys then store.keys else store.keys ++ [key] := by
  unfold insert
  by_cases hkey : key ∈ store.keys
  · rw [if_pos hkey]
    simp only [contains_iff.mpr hkey, if_true, keys, List.map_map]
    refine List.map_congr_left fun entry _ => ?_
    by_cases hentry : entry.key = key <;> simp [hentry]
  · rw [if_neg hkey]
    simp [mt contains_iff.mp hkey, keys]

theorem keys_erase : (store.erase key).keys = store.keys.filter (· ≠ key) := by
  simp only [keys, erase, List.filter_map]
  rfl

theorem nodup_keys_insert (hnodup : store.keys.Nodup) :
    (store.insert key record print).keys.Nodup := by
  rw [keys_insert]
  split
  · exact hnodup
  · next hkey => exact List.nodup_append_comm.mp (List.nodup_cons.mpr ⟨hkey, hnodup⟩)

theorem eq_of_key_eq {other : StoredRecord φ} (hnodup : store.keys.Nodup)
    (hentry : entry ∈ store.entries) (hother : other ∈ store.entries)
    (hkey : entry.key = other.key) : entry = other :=
  List.inj_on_of_nodup_map hnodup hentry hother hkey

theorem find?_of_mem (hnodup : store.keys.Nodup) (hentry : entry ∈ store.entries) :
    store.find? entry.key = some entry := by
  cases hfound : store.find? entry.key with
  | none => simpa using List.find?_eq_none.mp hfound entry hentry
  | some other =>
      have hkey : other.key = entry.key := by simpa using List.find?_some hfound
      rw [eq_of_key_eq hnodup (List.mem_of_find?_eq_some hfound) hentry hkey]

/-- The records are what is found under the keys. -/
theorem records_map_some (hnodup : store.keys.Nodup) :
    store.records.map some = store.keys.map store.get? := by
  simp only [records, keys, List.map_map]
  refine List.map_congr_left fun entry hentry => ?_
  simp [get?, find?_of_mem hnodup hentry]

end ComponentDocs.RecordStore
