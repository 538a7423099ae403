import Mathlib.Data.List.Nodup
import ComponentDocs.Proofs.Files.Disk

/-!
# Listed files

On a real disk the entries of a directory have different names, and none of them is a double dot.
Each file below a directory is then listed once (`ComponentFiles.nodup_walk`), and by a path that is
canonical if the one of the directory is (`ComponentFiles.settled_of_mem_walk`).

Both follow from where the files lie that an entry contributes: below the path of the directory, and
there below the name of the entry (`ComponentFiles.exists_of_mem_walkAll`).
-/

namespace ComponentDocs

namespace Entry

mutual

/-- Whether all directories below an entry have distinct names for their entries, and no double
dots. -/
def hasDistinctNames : Entry → Bool
  | file .. => true
  | directory _ children => allDistinct children

/-- Whether the entries of a directory, and all below them, have distinct names. -/
def allDistinct : List (String × Entry) → Bool
  | [] => true
  | (name, entry) :: rest =>
    name ≠ ".." && name ∉ rest.map Prod.fst && entry.hasDistinctNames && allDistinct rest

end

variable {here entry : Entry} {children : List (String × Entry)} {name : String}

theorem allDistinct_cons {rest : List (String × Entry)} :
    allDistinct ((name, entry) :: rest) ↔
      name ≠ ".." ∧ name ∉ rest.map Prod.fst ∧ entry.hasDistinctNames ∧ allDistinct rest := by
  simp only [allDistinct, Bool.and_eq_true, decide_eq_true_eq, and_assoc]

theorem hasDistinctNames_of_mem (hchildren : allDistinct children)
    (hentry : (name, entry) ∈ children) : entry.hasDistinctNames := by
  induction children with
  | nil => cases hentry
  | cons child rest ih =>
      obtain ⟨-, -, hchild, hrest⟩ := allDistinct_cons.mp hchildren
      rcases List.mem_cons.mp hentry with heq | hmem
      · cases heq
        exact hchild
      · exact ih hrest hmem

theorem hasDistinctNames_of_child? (hhere : here.hasDistinctNames)
    (hentry : here.child? name = some entry) : entry.hasDistinctNames := by
  have hmem := mem_children_of_child? hentry
  cases here with
  | file content time => cases hmem
  | directory time children => exact hasDistinctNames_of_mem hhere hmem

end Entry

theorem Disk.hasDistinctNames_of_lookup {disk : Disk} (hnames : disk.top.hasDistinctNames)
    {p : Path} {entry : Entry} (hentry : disk.lookup p = .ok entry) : entry.hasDistinctNames := by
  rw [FileSystem.lookup] at hentry
  split at hentry
  · cases hentry
  · exact Entry.follow_preserves (motive := fun e => e.hasDistinctNames)
      Entry.hasDistinctNames_of_child? (by simp) hnames hentry

theorem FileSystem.exists_of_isDirectory {fs : FileSystem} {p : Path}
    (hdirectory : fs.isDirectory p = .ok true) :
    ∃ time children, fs.lookup p = .ok (.directory time children) := by
  unfold isDirectory entry? at hdirectory
  cases hlookup : fs.lookup p with
  | error problem => cases problem <;> rw [hlookup] at hdirectory <;> cases hdirectory
  | ok entry =>
      cases entry with
      | file content time =>
          rw [hlookup] at hdirectory
          cases hdirectory
      | directory time children => exact ⟨time, children, rfl⟩

namespace ComponentFiles

variable {wanted : String → Bool} {path p : Path}

/-! ## Where listed files lie -/

mutual

/-- The files below an entry lie below its path. -/
theorem exists_of_mem_walk {path : Path} :
    ∀ {entry : Entry}, entry.hasDistinctNames → p ∈ walk wanted path entry →
      ∃ more, p = ⟨path.anchor, path.segments ++ more⟩ ∧ ".." ∉ more
  | .file .., _, hp => by simp [walk] at hp
  | .directory _ children, hentry, hp => by
      obtain ⟨share, hshare, hp⟩ := mem_inOrder.mp hp
      obtain ⟨-, more, hmore, hdots⟩ := exists_of_mem_walkAll hentry hshare hp
      exact ⟨share.name :: more, hmore, hdots⟩

/-- What an entry of a directory contributes lies below its name. -/
theorem exists_of_mem_walkAll {path : Path} :
    ∀ {children : List (String × Entry)}, Entry.allDistinct children →
      ∀ {share}, share ∈ walkAll wanted path children → p ∈ share.paths →
        share.name ∈ children.map Prod.fst ∧
        ∃ more, p = ⟨path.anchor, path.segments ++ share.name :: more⟩ ∧
          ".." ∉ share.name :: more
  | [], _, _, hshare, _ => by simp [walkAll] at hshare
  | (name, .file ..) :: rest, hchildren, share, hshare, hp => by
      obtain ⟨hname, -, -, hrest⟩ := Entry.allDistinct_cons.mp hchildren
      rw [walkAll, List.mem_cons] at hshare
      rcases hshare with rfl | hshare
      · dsimp only at hp
        split at hp
        · exact ⟨List.mem_cons_self, [], List.mem_singleton.mp hp, by simpa using hname.symm⟩
        · cases hp
      · obtain ⟨hmem, hbelow⟩ := exists_of_mem_walkAll hrest hshare hp
        exact ⟨List.mem_cons_of_mem _ hmem, hbelow⟩
  | (name, .directory _ below) :: rest, hchildren, share, hshare, hp => by
      obtain ⟨hname, -, hbelow, hrest⟩ := Entry.allDistinct_cons.mp hchildren
      rw [walkAll, List.mem_cons] at hshare
      rcases hshare with rfl | hshare
      · dsimp only at hp
        split at hp
        · cases hp
        · obtain ⟨share, hshare, hp⟩ := mem_inOrder.mp hp
          obtain ⟨-, more, hmore, hdots⟩ := exists_of_mem_walkAll hbelow hshare hp
          refine ⟨List.mem_cons_self, share.name :: more, ?_, ?_⟩
          · rw [hmore, Path.child, List.append_assoc]
            rfl
          · exact List.not_mem_cons_of_ne_of_not_mem hname.symm hdots
      · obtain ⟨hmem, hbelow⟩ := exists_of_mem_walkAll hrest hshare hp
        exact ⟨List.mem_cons_of_mem _ hmem, hbelow⟩

end

/-- Below a canonical path, the paths of listed files are canonical. -/
theorem settled_of_mem_walk (hpath : path.Settled) {entry : Entry}
    (hentry : entry.hasDistinctNames) (hp : p ∈ walk wanted path entry) : p.Settled := by
  obtain ⟨more, rfl, hmore⟩ := exists_of_mem_walk hentry hp
  exact ⟨hpath.anchor_eq, fun hdots => (List.mem_append.mp hdots).elim hpath.no_dots hmore⟩

/-! ## Each file is listed once -/

theorem nodup_inOrder {shares : List Share} :
    (inOrder shares).Nodup ↔ (shares.flatMap Share.paths).Nodup := by
  simp only [inOrder, List.partition_eq_filter_filter]
  refine (List.Perm.flatMap_right _ ?_).nodup_iff
  exact ((List.mergeSort_perm _ _).append (List.mergeSort_perm _ _)).trans
    (List.filter_append_perm _ _)

/-- A path below one name is not among those below the others. -/
private theorem not_mem_walkAll {name : String} {rest : List (String × Entry)}
    (hrest : Entry.allDistinct rest) (hnew : name ∉ rest.map Prod.fst) {more : List String}
    (hp : p = ⟨path.anchor, path.segments ++ name :: more⟩) :
    p ∉ (walkAll wanted path rest).flatMap Share.paths := by
  intro hmem
  obtain ⟨share, hshare, hmem⟩ := List.mem_flatMap.mp hmem
  obtain ⟨hname, others, hothers, -⟩ := exists_of_mem_walkAll hrest hshare hmem
  have hsegments : path.segments ++ name :: more = path.segments ++ share.name :: others :=
    congrArg Path.segments (hp.symm.trans hothers)
  have hsame : name :: more = share.name :: others := List.append_cancel_left hsegments
  injection hsame with hsame
  exact hnew (hsame ▸ hname)

mutual

/-- **No file is listed twice.** -/
theorem nodup_walk {path : Path} :
    ∀ {entry : Entry}, entry.hasDistinctNames → (walk wanted path entry).Nodup
  | .file .., _ => List.nodup_nil
  | .directory _ children, hentry => nodup_inOrder.mpr (nodup_walkAll hentry)

private theorem nodup_walkAll {path : Path} :
    ∀ {children : List (String × Entry)}, Entry.allDistinct children →
      ((walkAll wanted path children).flatMap Share.paths).Nodup
  | [], _ => by simp [walkAll]
  | (name, .file ..) :: rest, hchildren => by
      obtain ⟨-, hnew, -, hrest⟩ := Entry.allDistinct_cons.mp hchildren
      rw [walkAll, List.flatMap_cons, List.nodup_append']
      refine ⟨?_, nodup_walkAll hrest, fun p hp => ?_⟩
      · dsimp only
        split <;> simp
      · obtain ⟨-, more, hmore, -⟩ :=
          exists_of_mem_walkAll hchildren (by rw [walkAll]; exact List.mem_cons_self) hp
        exact not_mem_walkAll hrest hnew hmore
  | (name, .directory _ below) :: rest, hchildren => by
      obtain ⟨-, hnew, hbelow, hrest⟩ := Entry.allDistinct_cons.mp hchildren
      rw [walkAll, List.flatMap_cons, List.nodup_append']
      refine ⟨?_, nodup_walkAll hrest, fun p hp => ?_⟩
      · dsimp only
        split
        · exact List.nodup_nil
        · exact nodup_inOrder.mpr (nodup_walkAll hbelow)
      · obtain ⟨-, more, hmore, -⟩ :=
          exists_of_mem_walkAll hchildren (by rw [walkAll]; exact List.mem_cons_self) hp
        exact not_mem_walkAll hrest hnew hmore

end

/-! ## Listing a directory -/

/-- What is listed below an existing directory. -/
theorem below_of_isDirectory {fs : FileSystem} {place : Path}
    (hplace : fs.canonical path = .ok place) (hdirectory : fs.isDirectory place = .ok true)
    (given : String) (pattern : NamePattern) :
    ∃ entry, fs.lookup place = .ok entry ∧
      below fs path given (.ok pattern) = .ok (walk pattern.found place entry) := by
  obtain ⟨time, children, hlookup⟩ := FileSystem.exists_of_isDirectory hdirectory
  refine ⟨_, hlookup, ?_⟩
  unfold below directoryAt FileSystem.entry?
  simp only [hplace, hlookup]
  rfl

end ComponentFiles

end ComponentDocs
