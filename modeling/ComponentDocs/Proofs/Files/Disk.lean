import ComponentDocs.ComponentFiles
import ComponentDocs.Proofs.Files.Canonical
import ComponentDocs.Proofs.Files.PathText

/-!
# Disks

A disk is a file system in which every name is a proper segment of a path, which no real one
violates.  Writing and deleting files keeps it one.  All paths that come up on a disk are then
well-formed: those made canonical (`Disk.wellFormed_canonical`) and those of listed files
(`ComponentFiles.wellFormed_of_mem_below`).
-/

namespace ComponentDocs

namespace Entry

mutual

/-- Whether all names below an entry are proper ones. -/
def hasProperNames : Entry → Bool
  | file .. => true
  | directory _ children => allProper children

/-- Whether the entries of a directory, and all names below them, have proper names. -/
def allProper : List (String × Entry) → Bool
  | [] => true
  | (name, entry) :: rest => Path.isSegment name && entry.hasProperNames && allProper rest

end

variable {here entry : Entry} {children : List (String × Entry)} {name : String}

theorem allProper_iff :
    allProper children ↔ ∀ c ∈ children, Path.isSegment c.1 ∧ c.2.hasProperNames := by
  induction children with
  | nil => simp [allProper]
  | cons child rest ih => simp [allProper, ih]

theorem hasProperNames_children (hhere : here.hasProperNames) : allProper here.children := by
  cases here with
  | file content time => rfl
  | directory time children => exact hhere

theorem mem_children_of_child? (hentry : here.child? name = some entry) :
    (name, entry) ∈ here.children := by
  rw [child?] at hentry
  generalize here.children = children at hentry
  induction children with
  | nil => simp at hentry
  | cons child rest ih =>
      rw [List.lookup_cons] at hentry
      split at hentry
      · next hname =>
          injection hentry with hentry
          rw [eq_of_beq hname, ← hentry]
          exact List.mem_cons_self
      · exact List.mem_cons_of_mem _ (ih hentry)

theorem hasProperNames_of_child? (hhere : here.hasProperNames)
    (hentry : here.child? name = some entry) : entry.hasProperNames :=
  (allProper_iff.mp (hasProperNames_children hhere) _ (mem_children_of_child? hentry)).2

/-- Following segments keeps what passes from directories to their entries. -/
theorem follow_preserves {motive : Entry → Prop}
    (hchild : ∀ {here name entry}, motive here → here.child? name = some entry → motive entry)
    {above : List Entry} {segments : List String} (habove : ∀ e ∈ above, motive e)
    (hhere : motive here) (hfollow : follow above here segments = .ok entry) : motive entry := by
  fun_induction follow above here segments with
  | case1 =>
      injection hfollow with hfollow
      exact hfollow ▸ hhere
  | case2 => cases hfollow
  | case3 time children rest up more ih =>
      rw [List.forall_mem_cons] at habove
      exact ih habove.2 habove.1 hfollow
  | case4 time children rest ih => exact ih habove hhere hfollow
  | case5 => cases hfollow
  | case6 above time children segment rest _ _ below hbelow ih =>
      exact ih (List.forall_mem_cons.mpr ⟨hhere, habove⟩) (hchild hhere hbelow) hfollow
  | case7 => cases hfollow

theorem allProper_setChild (hname : Path.isSegment name) (hentry : entry.hasProperNames)
    (hchildren : allProper children) : allProper (setChild name entry children) := by
  induction children with
  | nil => simp [setChild, allProper, hname, hentry]
  | cons child rest ih =>
      simp only [allProper, Bool.and_eq_true] at hchildren
      rw [setChild]
      split
      · simp [allProper, hname, hentry, hchildren.2]
      · simp [allProper, hchildren.1, ih hchildren.2]

private theorem hasProperNames_below (hhere : here.hasProperNames) (name : String) :
    ((here.child? name).getD (directory defaultTime [])).hasProperNames := by
  cases hbelow : here.child? name with
  | none => rfl
  | some below => exact hasProperNames_of_child? hhere hbelow

theorem hasProperNames_put {segments : List String}
    (hsegments : ∀ s ∈ segments, Path.isSegment s) (hentry : entry.hasProperNames)
    (hhere : here.hasProperNames) : (put entry segments here).hasProperNames := by
  induction segments generalizing here with
  | nil => exact hentry
  | cons name rest ih =>
      rw [List.forall_mem_cons] at hsegments
      exact allProper_setChild hsegments.1 (ih hsegments.2 (hasProperNames_below hhere name))
        (hasProperNames_children hhere)

theorem hasProperNames_remove {segments : List String}
    (hsegments : ∀ s ∈ segments, Path.isSegment s) (hhere : here.hasProperNames) :
    (remove segments here).hasProperNames := by
  fun_induction remove segments here with
  | case1 => exact hhere
  | case2 name time children =>
      refine allProper_iff.mpr fun child hchild => ?_
      exact allProper_iff.mp (hasProperNames_children hhere) child (List.mem_of_mem_filter hchild)
  | case3 => exact hhere
  | case4 here name rest hrest below hbelow ih =>
      rw [List.forall_mem_cons] at hsegments
      exact allProper_setChild hsegments.1
        (ih hsegments.2 (hasProperNames_of_child? hhere hbelow)) (hasProperNames_children hhere)
  | case5 => exact hhere

end Entry

/-- A file system in which every name is a proper segment of a path. -/
structure Disk extends FileSystem where
  top_proper : top.hasProperNames
  current_proper : current.all Path.isSegment
  home_proper : home.all Path.isSegment

namespace Disk

variable {disk : Disk} {p q : Path}

theorem wellFormed_resolve (disk : Disk) (hp : p.WellFormed) : (disk.resolve p).WellFormed := by
  intro s hs
  have hs := Path.mem_of_mem_resolveDots hs
  unfold FileSystem.absolute Path.join at hs
  split at hs
  · exact hp s hs
  · rcases List.mem_append.mp hs with hs | hs
    · exact List.all_eq_true.mp disk.current_proper s hs
    · exact hp s hs

/-- What is canonical is well-formed. -/
theorem wellFormed_canonical (hp : p.WellFormed) (hq : disk.canonical p = .ok q) :
    q.WellFormed := by
  unfold FileSystem.canonical at hq
  split at hq
  · next expanded hexpanded =>
      injection hq with hq
      refine hq ▸ wellFormed_resolve disk fun s hs => ?_
      unfold FileSystem.expandHome? at hexpanded
      split at hexpanded
      · next first rest hanchor hsegments =>
          have hrest : ∀ s ∈ rest, Path.isSegment s := fun s hs =>
            hp s (hsegments ▸ List.mem_cons_of_mem _ hs)
          split at hexpanded
          · injection hexpanded with hexpanded
            subst hexpanded
            rcases List.mem_append.mp hs with hs | hs
            · exact List.all_eq_true.mp disk.home_proper s hs
            · exact hrest s hs
          · split at hexpanded
            · cases hexpanded
            · injection hexpanded with hexpanded
              exact hp s (hexpanded ▸ hs)
      · injection hexpanded with hexpanded
        exact hp s (hexpanded ▸ hs)
  · cases hq

theorem hasProperNames_of_lookup {entry : Entry} (hentry : disk.lookup p = .ok entry) :
    entry.hasProperNames := by
  rw [FileSystem.lookup] at hentry
  split at hentry
  · cases hentry
  · exact Entry.follow_preserves (motive := fun e => e.hasProperNames)
      Entry.hasProperNames_of_child? (by simp) disk.top_proper hentry

/-! ## Changing files -/

/-- The disk with a file written. -/
def write (disk : Disk) (path : String) (content : List UInt8) (time : Int) : Disk where
  toFileSystem := disk.toFileSystem.write (Path.ofString path) content time
  top_proper := Entry.hasProperNames_put
    (wellFormed_resolve disk (Path.wellFormed_ofString path)) rfl disk.top_proper
  current_proper := disk.current_proper
  home_proper := disk.home_proper

/-- The disk without what the path leads to. -/
def delete (disk : Disk) (path : String) : Disk where
  toFileSystem := disk.toFileSystem.delete (Path.ofString path)
  top_proper := Entry.hasProperNames_remove
    (wellFormed_resolve disk (Path.wellFormed_ofString path)) disk.top_proper
  current_proper := disk.current_proper
  home_proper := disk.home_proper

end Disk

/-! ## Listed files -/

namespace ComponentFiles

variable {wanted : String → Bool} {path p : Path}

theorem mem_inOrder {shares : List Share} :
    p ∈ inOrder shares ↔ ∃ share ∈ shares, p ∈ share.paths := by
  simp only [inOrder, List.partition_eq_filter_filter, List.mem_flatMap, List.mem_append,
    List.mem_mergeSort, List.mem_filter]
  constructor
  · rintro ⟨share, ⟨hshare, -⟩ | ⟨hshare, -⟩, hp⟩ <;> exact ⟨share, hshare, hp⟩
  · rintro ⟨share, hshare, hp⟩
    cases hfile : share.isFile with
    | true => exact ⟨share, .inl ⟨hshare, hfile⟩, hp⟩
    | false => exact ⟨share, .inr ⟨hshare, by simp [hfile]⟩, hp⟩

private theorem wellFormed_child (hpath : path.WellFormed) {name : String}
    (hname : Path.isSegment name) : (path.child name).WellFormed := by
  intro s hs
  rcases List.mem_append.mp hs with hs | hs
  · exact hpath s hs
  · exact List.mem_singleton.mp hs ▸ hname

mutual

theorem wellFormed_of_mem_walk (hpath : path.WellFormed) :
    ∀ {entry : Entry}, entry.hasProperNames → p ∈ walk wanted path entry → p.WellFormed
  | .file .., _, hp => by simp [walk] at hp
  | .directory _ children, hentry, hp => by
      obtain ⟨share, hshare, hp⟩ := mem_inOrder.mp hp
      exact wellFormed_of_mem_walkAll hpath hentry hshare hp

private theorem wellFormed_of_mem_walkAll {path : Path} (hpath : path.WellFormed) :
    ∀ {children : List (String × Entry)}, Entry.allProper children →
      ∀ {share}, share ∈ walkAll wanted path children → p ∈ share.paths → p.WellFormed
  | [], _, _, hshare, _ => by simp [walkAll] at hshare
  | (name, .file ..) :: rest, hchildren, share, hshare, hp => by
      simp only [Entry.allProper, Bool.and_eq_true] at hchildren
      rw [walkAll, List.mem_cons] at hshare
      rcases hshare with rfl | hshare
      · dsimp only at hp
        split at hp
        · exact List.mem_singleton.mp hp ▸ wellFormed_child hpath hchildren.1.1
        · cases hp
      · exact wellFormed_of_mem_walkAll hpath hchildren.2 hshare hp
  | (name, .directory _ below) :: rest, hchildren, share, hshare, hp => by
      simp only [Entry.allProper, Bool.and_eq_true] at hchildren
      rw [walkAll, List.mem_cons] at hshare
      rcases hshare with rfl | hshare
      · dsimp only at hp
        split at hp
        · cases hp
        · obtain ⟨share, hshare, hp⟩ := mem_inOrder.mp hp
          exact wellFormed_of_mem_walkAll (wellFormed_child hpath hchildren.1.1) hchildren.1.2
            hshare hp
      · exact wellFormed_of_mem_walkAll hpath hchildren.2 hshare hp

end

theorem directoryAt_eq_ok {fs : FileSystem} {given : String} {found : Path × Entry}
    (hfound : directoryAt fs path given = .ok found) :
    fs.canonical path = .ok found.1 ∧ fs.lookup found.1 = .ok found.2 := by
  unfold directoryAt at hfound
  split at hfound
  · cases hfound
  · next place hplace =>
      unfold FileSystem.entry? at hfound
      cases hlookup : fs.lookup place with
      | error problem => cases problem <;> simp [hlookup] at hfound
      | ok entry =>
          cases entry with
          | file content time => simp [hlookup] at hfound
          | directory time children =>
              simp only [hlookup, Except.ok.injEq] at hfound
              exact hfound ▸ ⟨hplace, hlookup⟩

/-- The paths of listed files are well-formed. -/
theorem wellFormed_of_mem_below {disk : Disk} {given : String}
    {pattern : Except ListingProblem NamePattern} {paths : List Path} (hpath : path.WellFormed)
    (hpaths : below disk.toFileSystem path given pattern = .ok paths) (hp : p ∈ paths) :
    p.WellFormed := by
  simp only [below, bind, Except.bind, pure, Except.pure] at hpaths
  split at hpaths
  · cases hpaths
  · next found hfound =>
      split at hpaths
      · cases hpaths
      · next pattern _ =>
          injection hpaths with hpaths
          subst hpaths
          obtain ⟨hplace, hentry⟩ := directoryAt_eq_ok hfound
          refine wellFormed_of_mem_walk (Disk.wellFormed_canonical hpath hplace) ?_ hp
          exact Disk.hasProperNames_of_lookup hentry

end ComponentFiles

end ComponentDocs
