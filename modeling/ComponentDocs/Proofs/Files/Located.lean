import ComponentDocs.Proofs.Files.Inventory
import ComponentDocs.Proofs.Files.Listing
import ComponentDocs.Proofs.Pattern.Ways

/-!
# Located files

Locating lists exactly the files that it should (`ComponentFiles.below_located`): those below the
directory whose names match the pattern, as long as no directory in between is hidden or one of
dependencies; each of them once, and the files of a directory before those of its subdirectories.

The files below an entry are known by the segments that lead to them (`Entry.files`), so what a walk
lists is told by these segments alone (`ComponentFiles.mem_walk_iff`).  For the order, each entry of
a directory contributes paths that go on with its name, and only a directory contributes longer ones
(`ComponentFiles.exists_of_mem_paths`); files contribute first.
-/

namespace ComponentDocs

/-! ## Which files are listed -/

/-- The first path lies in a subdirectory of the directory that holds the second one. -/
def Path.IsDeeper (p q : Path) : Prop :=
  q.parent.segments <+: p.segments ∧ q.segments.length < p.segments.length

namespace ComponentFiles

variable {wanted : String → Bool} {path p : Path} {name : String}
  {files more : List (List String × List UInt8)}

/-- A path is that of a wanted file, and no directory on the way to it is passed over. -/
def IsLocated (wanted : String → Bool) (path : Path) (files : List (List String × List UInt8))
    (p : Path) : Prop :=
  ∃ dirs name bytes, p = ⟨path.anchor, path.segments ++ dirs ++ [name]⟩ ∧
    (dirs ++ [name], bytes) ∈ files ∧ wanted name ∧ ∀ d ∈ dirs, isSkipped d = false

theorem isLocated_append :
    IsLocated wanted path (files ++ more) p ↔
      IsLocated wanted path files p ∨ IsLocated wanted path more p := by
  simp only [IsLocated, List.mem_append]
  constructor
  · rintro ⟨dirs, name, bytes, hp, hfile | hfile, hrest⟩
    · exact .inl ⟨dirs, name, bytes, hp, hfile, hrest⟩
    · exact .inr ⟨dirs, name, bytes, hp, hfile, hrest⟩
  · rintro (⟨dirs, name, bytes, hp, hfile, hrest⟩ | ⟨dirs, name, bytes, hp, hfile, hrest⟩)
    · exact ⟨dirs, name, bytes, hp, .inl hfile, hrest⟩
    · exact ⟨dirs, name, bytes, hp, .inr hfile, hrest⟩

/-- Of the files behind one name, one may bear this name itself, and the others lie in the directory
of this name. -/
theorem isLocated_map_cons :
    IsLocated wanted path (files.map fun (segments, content) => (name :: segments, content)) p ↔
      ((∃ bytes, ([], bytes) ∈ files) ∧ wanted name ∧ p = path.child name) ∨
        (isSkipped name = false ∧ IsLocated wanted (path.child name) files p) := by
  constructor
  · rintro ⟨dirs, last, bytes, rfl, hfile, hwanted, hdirs⟩
    obtain ⟨⟨segments, content⟩, hmem, heq⟩ := List.mem_map.mp hfile
    cases dirs with
    | nil =>
        cases heq
        exact .inl ⟨⟨_, hmem⟩, hwanted, by rw [List.append_nil]; rfl⟩
    | cons dir dirs =>
        cases heq
        obtain ⟨hname, hrest⟩ := List.forall_mem_cons.mp hdirs
        refine .inr ⟨hname, dirs, last, bytes, ?_, hmem, hwanted, hrest⟩
        simp [Path.child]
  · rintro (⟨⟨bytes, hmem⟩, hwanted, rfl⟩ | ⟨hname, dirs, last, bytes, rfl, hmem, hwanted, hdirs⟩)
    · refine ⟨[], name, bytes, ?_, List.mem_map.mpr ⟨_, hmem, rfl⟩, hwanted, ?_⟩
      · simp [Path.child]
      · exact fun d hd => by cases hd
    · refine ⟨name :: dirs, last, bytes, ?_, List.mem_map.mpr ⟨_, hmem, rfl⟩, hwanted,
        List.forall_mem_cons.mpr ⟨hname, hdirs⟩⟩
      simp [Path.child]

private theorem ne_nil_of_mem_filesOfAll {children : List (String × Entry)}
    {file : List String × List UInt8} (hfile : file ∈ Entry.filesOfAll children) : file.1 ≠ [] := by
  induction children with
  | nil => simp [Entry.filesOfAll] at hfile
  | cons child rest ih =>
      rw [Entry.filesOfAll, List.mem_append] at hfile
      rcases hfile with hhere | hrest
      · obtain ⟨_, -, rfl⟩ := List.mem_map.mp hhere
        exact List.cons_ne_nil _ _
      · exact ih hrest

mutual

/-- **What a walk lists**: the wanted files below an entry, those in directories passed over left
out. -/
theorem mem_walk_iff {path : Path} :
    ∀ {entry : Entry}, p ∈ walk wanted path entry ↔ IsLocated wanted path entry.files p
  | .file .. => by simp [walk, IsLocated, Entry.files]
  | .directory _ children => mem_inOrder.trans mem_walkAll_iff

private theorem mem_walkAll_iff {path : Path} :
    ∀ {children : List (String × Entry)},
      (∃ share ∈ walkAll wanted path children, p ∈ share.paths) ↔
        IsLocated wanted path (Entry.filesOfAll children) p
  | [] => by simp [walkAll, IsLocated, Entry.filesOfAll]
  | (name, .file content time) :: rest => by
      have hnone : ¬ IsLocated wanted (path.child name) [([], content)] p := by
        rintro ⟨dirs, last, bytes, -, hmem, -⟩
        simp at hmem
      rw [walkAll, List.exists_mem_cons_iff, mem_walkAll_iff, Entry.filesOfAll, isLocated_append,
        isLocated_map_cons, Entry.files]
      refine or_congr_left ?_
      by_cases hwanted : wanted name <;> simp [hwanted, hnone]
  | (name, .directory time below) :: rest => by
      have hnone : ¬ ∃ bytes, (([] : List String), bytes) ∈ Entry.filesOfAll below :=
        fun ⟨_, hmem⟩ => ne_nil_of_mem_filesOfAll hmem rfl
      rw [walkAll, List.exists_mem_cons_iff, mem_walkAll_iff, Entry.filesOfAll, isLocated_append,
        isLocated_map_cons, Entry.files]
      refine or_congr_left ?_
      have hbelow : (∃ share ∈ walkAll wanted (path.child name) below, p ∈ share.paths) ↔
          IsLocated wanted (path.child name) (Entry.filesOfAll below) p := mem_walkAll_iff
      by_cases hskipped : isSkipped name <;> simp [hskipped, hnone, mem_inOrder, hbelow]

end

/-! ## The order -/

/-- The names of the shares are those of the entries. -/
theorem map_name_walkAll (children : List (String × Entry)) :
    (walkAll wanted path children).map Share.name = children.map Prod.fst := by
  induction children with
  | nil => simp [walkAll]
  | cons child rest ih =>
      obtain ⟨name, entry⟩ := child
      cases entry <;> rw [walkAll, List.map_cons, ih] <;> rfl

/-- Whatever an entry contributes lies at its name if it is a file, and deeper if it is not. -/
theorem exists_of_mem_paths {children : List (String × Entry)} {share : Share}
    (hshare : share ∈ walkAll wanted path children) (hp : p ∈ share.paths) :
    ∃ deeper, p.segments = path.segments ++ share.name :: deeper ∧
      (deeper = [] ↔ share.isFile) := by
  induction children with
  | nil => simp [walkAll] at hshare
  | cons child rest ih =>
      obtain ⟨name, entry⟩ := child
      cases entry with
      | file content time =>
          rw [walkAll, List.mem_cons] at hshare
          rcases hshare with rfl | hshare
          · dsimp only at hp
            split at hp
            · exact ⟨[], congrArg Path.segments (List.mem_singleton.mp hp), by simp⟩
            · cases hp
          · exact ih hshare
      | directory time below =>
          rw [walkAll, List.mem_cons] at hshare
          rcases hshare with rfl | hshare
          · dsimp only at hp
            split at hp
            · cases hp
            · have hwalk : p ∈ walk wanted (path.child name) (.directory time below) := by
                rwa [walk]
              obtain ⟨dirs, last, bytes, rfl, -⟩ := mem_walk_iff.mp hwalk
              exact ⟨dirs ++ [last], by simp [Path.child], by simp⟩
          · exact ih hshare

theorem nodup_names_of_allDistinct {children : List (String × Entry)}
    (hchildren : Entry.allDistinct children) : (children.map Prod.fst).Nodup := by
  induction children with
  | nil => exact List.nodup_nil
  | cons child rest ih =>
      obtain ⟨-, hnew, -, hrest⟩ := Entry.allDistinct_cons.mp hchildren
      exact List.nodup_cons.mpr ⟨hnew, ih hrest⟩

/-- If each share is in order, then so are all of them: a path that a file contributes is not deep
enough to come too early, and paths behind different names lie in different directories. -/
private theorem pairwise_inOrder {children : List (String × Entry)}
    (hchildren : Entry.allDistinct children)
    (hshares : ∀ share ∈ walkAll wanted path children,
      share.paths.Pairwise fun p q => ¬ p.IsDeeper q) :
    (inOrder (walkAll wanted path children)).Pairwise fun p q => ¬ p.IsDeeper q := by
  let shares := walkAll wanted path children
  let sorted (shares : List Share) := shares.mergeSort fun a b => a.name ≤ b.name
  let ordered := sorted (shares.filter Share.isFile) ++ sorted (shares.filter (not ∘ Share.isFile))
  have hperm : ordered.Perm shares :=
    ((List.mergeSort_perm _ _).append (List.mergeSort_perm _ _)).trans
      (List.filter_append_perm _ _)
  have hnames : ordered.Pairwise fun a b => a.name ≠ b.name := by
    have hnodup : (ordered.map Share.name).Nodup := by
      rw [(hperm.map Share.name).nodup_iff, map_name_walkAll]
      exact nodup_names_of_allDistinct hchildren
    exact List.pairwise_map.mp hnodup
  have hfiles : ordered.Pairwise fun a b => b.isFile → a.isFile := by
    have hkind {share : Share} {kind : Share → Bool}
        (hshare : share ∈ sorted (shares.filter kind)) : kind share :=
      (List.mem_filter.mp (List.mem_mergeSort.mp hshare)).2
    refine List.pairwise_append.mpr ⟨?_, ?_, fun a ha b _ _ => hkind ha⟩
    · exact List.pairwise_of_forall_mem_list fun a ha b _ _ => hkind ha
    · refine List.pairwise_of_forall_mem_list fun a _ b hb hfile => ?_
      simpa [hfile] using hkind hb
  have hin : inOrder shares = ordered.flatMap Share.paths := by
    simp only [inOrder, List.partition_eq_filter_filter]
    rfl
  show (inOrder shares).Pairwise _
  rw [hin, List.pairwise_flatMap]
  refine ⟨fun share hshare => hshares share (hperm.mem_iff.mp hshare), ?_⟩
  refine (hnames.and hfiles).imp_of_mem fun {a b} ha hb hab p hp q hq hdeeper => ?_
  obtain ⟨hne, hkinds⟩ := hab
  obtain ⟨deeper, hpSegments, hpKind⟩ := exists_of_mem_paths (hperm.mem_iff.mp ha) hp
  obtain ⟨others, hqSegments, hqKind⟩ := exists_of_mem_paths (hperm.mem_iff.mp hb) hq
  obtain ⟨hparent, hlength⟩ := hdeeper
  rw [Path.parent, hqSegments, hpSegments] at hparent
  rw [hqSegments, hpSegments] at hlength
  by_cases hfile : b.isFile
  · rw [hpKind.mpr (hkinds hfile), hqKind.mpr hfile] at hlength
    simp at hlength
  · obtain ⟨dir, rest, rfl⟩ : ∃ dir rest, others = dir :: rest :=
      List.exists_cons_of_ne_nil fun hnil => hfile (hqKind.mp hnil)
    rw [List.dropLast_append_of_ne_nil (List.cons_ne_nil _ _), List.dropLast_cons_cons,
      List.prefix_append_right_inj, List.cons_prefix_cons] at hparent
    exact hne hparent.1.symm

mutual

/-- **The files of a directory come before those of its subdirectories.** -/
theorem pairwise_walk {path : Path} :
    ∀ {entry : Entry}, entry.hasDistinctNames →
      (walk wanted path entry).Pairwise fun p q => ¬ p.IsDeeper q
  | .file .., _ => List.Pairwise.nil
  | .directory _ children, hentry => pairwise_inOrder hentry fun _ => pairwise_paths hentry

private theorem pairwise_paths {path : Path} :
    ∀ {children : List (String × Entry)}, Entry.allDistinct children →
      ∀ {share}, share ∈ walkAll wanted path children →
        share.paths.Pairwise fun p q => ¬ p.IsDeeper q
  | [], _, _, hshare => by simp [walkAll] at hshare
  | (name, .file ..) :: rest, hchildren, share, hshare => by
      obtain ⟨-, -, -, hrest⟩ := Entry.allDistinct_cons.mp hchildren
      rw [walkAll, List.mem_cons] at hshare
      rcases hshare with rfl | hshare
      · dsimp only
        split <;> simp
      · exact pairwise_paths hrest hshare
  | (name, .directory _ below) :: rest, hchildren, share, hshare => by
      obtain ⟨-, -, hbelow, hrest⟩ := Entry.allDistinct_cons.mp hchildren
      rw [walkAll, List.mem_cons] at hshare
      rcases hshare with rfl | hshare
      · dsimp only
        split
        · exact List.Pairwise.nil
        · exact pairwise_inOrder hbelow fun _ => pairwise_paths hbelow
      · exact pairwise_paths hrest hshare

end

/-! ## Locating -/

theorem isSkipped_eq_false_iff :
    isSkipped name = false ↔ name.toList.head? ≠ some '.' ∧ name ≠ "node_modules" := by
  rw [isSkipped, Bool.or_eq_false_iff, beq_eq_false_iff_ne, decide_eq_false_iff_not]
  rfl

/-- **Locating finds exactly the right files.**  Below an existing directory, which may be hidden
itself, the files are listed in whose names the pattern occurs, the given one or else the usual one,
and on the way to which there is no directory that starts with a dot or is one of dependencies; by
absolute paths, each file once, and the files of a directory before those of its subdirectories. -/
theorem below_located {disk : Disk} (hnames : disk.top.hasDistinctNames) {root place : Path}
    (hplace : disk.canonical root = .ok place) (hdirectory : disk.isDirectory place = .ok true)
    (given : String) {names : CharacterNames} {usual pattern : NamePattern} {asked : Option String}
    (hpattern : asked.elim (.ok usual) (readPattern names) = .ok pattern) :
    ∃ directory listed, disk.lookup place = .ok directory ∧
      below disk.toFileSystem root given (asked.elim (.ok usual) (readPattern names)) = .ok listed ∧
      (∀ p, p ∈ listed ↔
        ∃ dirs name bytes, p = ⟨.root, place.segments ++ dirs ++ [name]⟩ ∧
          (dirs ++ [name], bytes) ∈ directory.files ∧ pattern.Occurs name ∧
          ∀ d ∈ dirs, d.toList.head? ≠ some '.' ∧ d ≠ "node_modules") ∧
      listed.Nodup ∧ listed.Pairwise fun p q => ¬ p.IsDeeper q := by
  obtain ⟨directory, hlookup, hbelow⟩ := below_of_isDirectory hplace hdirectory given pattern
  have hdistinct : directory.hasDistinctNames := Disk.hasDistinctNames_of_lookup hnames hlookup
  have hanchor : place.anchor = .root := (FileSystem.settled_of_canonical hplace).anchor_eq
  refine ⟨directory, _, hlookup, hpattern ▸ hbelow, fun p => ?_, nodup_walk hdistinct,
    pairwise_walk hdistinct⟩
  rw [mem_walk_iff, IsLocated, hanchor]
  simp only [NamePattern.found_iff, isSkipped_eq_false_iff]

/-- A project with dependencies in a hidden directory. -/
def hiddenProject : Disk where
  top := .directory 0 [(".proj", .directory 0
    [("src", .directory 0 [("node_modules", .directory 0 [("b.ts", .file [] 0)]),
      ("b.ts", .file [] 0)]), (".b.ts", .file [] 0)])]
  current := [".proj"]
  home := [".proj"]
  top_proper := rfl
  current_proper := rfl
  home_proper := rfl

/-- The files of the hidden project are found, and its dependencies are not. -/
theorem hiddenProject_located :
    let names : CharacterNames := fun _ => none
    let pattern : NamePattern :=
      ⟨.seq (.mark .wordEdge) (.seq (PatternReader.single 98) .empty), []⟩
    let usual : NamePattern := ⟨.empty, []⟩
    hiddenProject.top.hasDistinctNames ∧
    hiddenProject.canonical (Path.ofString "src/..") = .ok ⟨.root, [".proj"]⟩ ∧
    hiddenProject.isDirectory ⟨.root, [".proj"]⟩ = .ok true ∧
    (some "\\bb").elim (.ok usual) (readPattern names) = .ok pattern ∧
    ∃ listed, below hiddenProject.toFileSystem (Path.ofString "src/..") "src/.."
        (readPattern names "\\bb") = .ok listed ∧
      ⟨.root, [".proj", "src", "b.ts"]⟩ ∈ listed ∧ ⟨.root, [".proj", ".b.ts"]⟩ ∈ listed ∧
      ⟨.root, [".proj", "src", "node_modules", "b.ts"]⟩ ∉ listed ∧ listed.Nodup := by
  intro names pattern usual
  have hnames : hiddenProject.top.hasDistinctNames := rfl
  have hplace : hiddenProject.canonical (Path.ofString "src/..") =
    .ok ⟨.root, [".proj"]⟩ := rfl
  have hdirectory : hiddenProject.isDirectory ⟨.root, [".proj"]⟩ = .ok true := by decide +kernel
  have hpattern : (some "\\bb").elim (.ok usual) (readPattern names) = .ok pattern := by
    decide +kernel
  obtain ⟨directory, listed, hlookup, hbelow, hlisted, hnodup, -⟩ :=
    below_located hnames hplace hdirectory "src/.." hpattern
  have hfiles : directory.files =
      [(["src", "node_modules", "b.ts"], []), (["src", "b.ts"], []), ([".b.ts"], [])] := by
    cases hlookup
    rfl
  have hshort : pattern.Occurs "b.ts" := NamePattern.found_iff.mp (by decide +kernel)
  have hlong : pattern.Occurs ".b.ts" := NamePattern.found_iff.mp (by decide +kernel)
  refine ⟨hnames, hplace, hdirectory, hpattern, listed, hbelow, ?_, ?_, ?_, hnodup⟩
  · exact (hlisted _).mpr ⟨["src"], "b.ts", [], rfl, by rw [hfiles]; decide, hshort, by decide⟩
  · exact (hlisted _).mpr ⟨[], ".b.ts", [], rfl, by rw [hfiles]; decide, hlong, by decide⟩
  · intro hmem
    obtain ⟨dirs, name, bytes, hpath, -, -, hdirs⟩ := (hlisted _).mp hmem
    have hway : ["src", "node_modules"] = dirs := by
      have hsegments := congrArg (fun p : Path => p.segments.tail.dropLast) hpath
      simpa using hsegments
    exact (hdirs "node_modules" (by rw [← hway]; decide)).2 rfl

end ComponentFiles

end ComponentDocs
