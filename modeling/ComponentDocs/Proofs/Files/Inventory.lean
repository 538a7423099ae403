import Mathlib.Algebra.Order.Ring.Nat
import ComponentDocs.Proofs.Files.Canonical

/-!
# All files of a tree

The files below an entry with their places and bytes.  A canonical path leads to nothing else
(`mem_files_of_read`), and the weight of a tree counts these files and their bytes
(`sum_files_eq_weight`).
-/

namespace ComponentDocs

namespace Entry

mutual

/-- The files below an entry, each with the segments that lead to it and its bytes. -/
def files : Entry → List (List String × List UInt8)
  | file content _ => [([], content)]
  | directory _ children => filesOfAll children

/-- The files below the entries of a directory. -/
def filesOfAll : List (String × Entry) → List (List String × List UInt8)
  | [] => []
  | (name, entry) :: rest =>
    (entry.files.map fun (segments, content) => (name :: segments, content)) ++ filesOfAll rest

end

mutual

/-- The weight of a tree is that of its files. -/
theorem sum_files_eq_weight :
    ∀ e : Entry, (e.files.map fun file => file.2.length + 2).sum = e.weight
  | file content _ => by simp [files, weight]
  | directory _ children => by
      rw [files, weight]
      exact sum_filesOfAll_eq_weightOfAll children

private theorem sum_filesOfAll_eq_weightOfAll :
    ∀ children : List (String × Entry),
      ((filesOfAll children).map fun file => file.2.length + 2).sum = weightOfAll children
  | [] => by simp [filesOfAll, weightOfAll]
  | (name, entry) :: rest => by
      have hentry := sum_files_eq_weight entry
      have hrest := sum_filesOfAll_eq_weightOfAll rest
      rw [filesOfAll, weightOfAll, List.map_append, List.sum_append, hrest, List.map_map]
      exact congrArg (· + weightOfAll rest) hentry

end

theorem mem_filesOfAll_of_lookup {children : List (String × Entry)} {name : String} {entry : Entry}
    (hentry : children.lookup name = some entry) {segments : List String} {content : List UInt8}
    (hfile : (segments, content) ∈ entry.files) :
    (name :: segments, content) ∈ filesOfAll children := by
  induction children with
  | nil => simp at hentry
  | cons child rest ih =>
      obtain ⟨n, e⟩ := child
      rw [filesOfAll, List.mem_append]
      rw [List.lookup_cons] at hentry
      by_cases hname : name = n
      · subst hname
        rw [beq_self_eq_true] at hentry
        injection hentry with hentry
        subst hentry
        exact .inl (List.mem_map.mpr ⟨_, hfile, rfl⟩)
      · rw [beq_false_of_ne hname] at hentry
        exact .inr (ih hentry)

/-- Segments without double dots lead to files below the entry only. -/
theorem mem_files_of_follow {above : List Entry} {here : Entry} {segments : List String}
    {content : List UInt8} {time : Int} (hdots : ".." ∉ segments)
    (hfollow : follow above here segments = .ok (.file content time)) :
    (segments, content) ∈ here.files := by
  induction segments generalizing above here with
  | nil =>
      simp only [follow, Except.ok.injEq] at hfollow
      simp [hfollow, files]
  | cons segment rest ih =>
      simp only [List.mem_cons, not_or] at hdots
      cases here with
      | file _ _ => simp [follow] at hfollow
      | directory _ children =>
          simp only [follow, if_neg (Ne.symm hdots.1)] at hfollow
          split at hfollow
          · cases hfollow
          · split at hfollow
            · next below hbelow => exact mem_filesOfAll_of_lookup hbelow (ih hdots.2 hfollow)
            · cases hfollow

end Entry

namespace FileSystem

variable {fs : FileSystem} {p : Path}

theorem exists_lookup_of_read {source : List UInt8} (hread : fs.read p = .ok source) :
    ∃ time, fs.lookup p = .ok (.file source time) := by
  unfold read at hread
  split at hread
  · next content time hlookup =>
      injection hread with hread
      exact ⟨time, hread ▸ hlookup⟩
  · cases hread
  · cases hread

/-- A canonical path leads to one of the files of the tree. -/
theorem mem_files_of_read (hp : p.Settled) {source : List UInt8}
    (hread : fs.read p = .ok source) : (p.segments, source) ∈ fs.top.files := by
  obtain ⟨time, hlookup⟩ := exists_lookup_of_read hread
  rw [lookup] at hlookup
  split at hlookup
  · cases hlookup
  · rw [absolute_of_settled hp] at hlookup
    exact Entry.mem_files_of_follow hp.no_dots hlookup

end FileSystem

end ComponentDocs
