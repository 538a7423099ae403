import ComponentDocs.Proofs.Extraction.DeclarationBound
import ComponentDocs.Proofs.Extraction.Traversal
import ComponentDocs.Proofs.Graph.DepthFirst

/-!
# The graph of declarations

The declarations that a project shows are the nodes of a graph, known by their keys, and an edge
leads from a declaration to each base that stands for something, in the order of the source
(`basesOf`).  A walk that meets no fault goes through this graph in depth-first preorder and visits
no declaration twice (`visit_explores`); its depth bound never comes into play, since the
declarations that are being expanded are all different.

Whatever is proved of a walk is proved of its way through the bases of a declaration first.  What
can happen there, base after base, is said once, by `BasesRun`: finding the base fails, the base
stands for nothing, going on from it fails, or going on from it succeeds.
-/

namespace ComponentDocs.Extraction

open Source Project ComponentDocs.Graph

/-- The declaration with a key, in the files that a project shows. -/
def node? (P : Project) (fs : FileSystem) (key : DeclarationKey) : Option Node :=
  match P.fileAt fs key.1 with
  | .ok file => (file.declaration? key.2).map (file, ·)
  | .error _ => none

/-- The key of the declaration that a base stands for, if there is one. -/
def baseKey? (P : Project) (fs : FileSystem) (file : ParsedFile) (base : BaseType) :
    Option DeclarationKey :=
  (resolution P fs file base).toOption.join.map Node.key

/-- The declarations that a declaration builds on, in the order of its source. -/
def basesOf (P : Project) (fs : FileSystem) (key : DeclarationKey) : List DeclarationKey :=
  match node? P fs key with
  | some (file, declaration) => declaration.bases.filterMap (baseKey? P fs file)
  | none => []

theorem baseKey?_of_resolution {P : Project} {fs : FileSystem} {file : ParsedFile} {base : BaseType}
    {target : Option Node} (hbase : resolution P fs file base = .ok target) :
    baseKey? P fs file base = target.map Node.key := by
  rw [baseKey?, hbase]
  rfl

/-- A file that a project shows at its own canonical path. -/
structure ShownFile (P : Project) (fs : FileSystem) (file : ParsedFile) : Prop where
  settled : file.path.Settled
  fileAt_eq : P.fileAt fs file.path = .ok file

/-- A declaration that a project shows, the first one of its name. -/
structure Shown (P : Project) (fs : FileSystem) (n : Node) : Prop extends ShownFile P fs n.1 where
  declaration?_eq : n.1.declaration? n.2.name = some n.2

variable {P : Project} {fs : FileSystem} {n : Node}

/-! ## Declarations that are shown -/

theorem ShownFile.shown {file : ParsedFile} (hfile : ShownFile P fs file) {name : String}
    {declaration : Declaration} (hdeclaration : file.declaration? name = some declaration) :
    Shown P fs (file, declaration) := by
  have hname : declaration.name = name := by simpa using List.find?_some hdeclaration
  exact ⟨hfile, hname ▸ hdeclaration⟩

theorem Shown.node?_key (hn : Shown P fs n) : node? P fs n.key = some n := by
  simp only [node?, Node.key, hn.fileAt_eq, hn.declaration?_eq, Option.map_some]

theorem Shown.eq_of_key_eq {m : Node} (hm : Shown P fs m) (hn : Shown P fs n)
    (hkey : m.key = n.key) : m = n := by
  have hsame : some m = some n := by rw [← hm.node?_key, ← hn.node?_key, hkey]
  exact Option.some.inj hsame

theorem Shown.key_mem (hn : Shown P fs n) : n.key ∈ keysInSight P fs :=
  mem_keysInSight hn.settled hn.fileAt_eq hn.declaration?_eq

theorem Shown.basesOf_key (hn : Shown P fs n) :
    basesOf P fs n.key = n.2.bases.filterMap (baseKey? P fs n.1) := by
  rw [basesOf, hn.node?_key]

/-- What a project shows stays shown when it keeps more of it. -/
theorem Shown.congr {Q : Project} {n : Node} (hview : SameView fs Q P) (hn : Shown P fs n) :
    Shown Q fs n where
  settled := hn.settled
  fileAt_eq := (hview.fileAt_eq _).trans hn.fileAt_eq
  declaration?_eq := hn.declaration?_eq

/-- Projects that show the same files have the same declarations. -/
theorem node?_congr {Q : Project} (hview : SameView fs Q P) : node? Q fs = node? P fs := by
  funext key
  rw [node?, node?, hview.fileAt_eq]

/-- Projects that show the same files have the same graph. -/
theorem basesOf_congr {Q : Project} (hview : SameView fs Q P) : basesOf Q fs = basesOf P fs := by
  funext key
  have hresolution : resolution Q fs = resolution P fs :=
    funext fun file => funext fun base => resolution_congr hview file base
  unfold basesOf baseKey?
  rw [node?_congr hview, hresolution]

private theorem shownFile_of_moduleFor? {importer target : ParsedFile} {specifier : String}
    {path : Path} (hpath : P.moduleFor? fs importer specifier = .ok (some path))
    (htarget : P.fileAt fs path = .ok target) : ShownFile P fs target := by
  obtain rfl := path_of_fileAt htarget
  exact ⟨settled_of_moduleFor? hpath, htarget⟩

/-- What a base of a shown file stands for is shown too. -/
theorem ShownFile.shown_of_resolution {file : ParsedFile} (hfile : ShownFile P fs file)
    {base : BaseType} (hbase : resolution P fs file base = .ok (some n)) : Shown P fs n := by
  unfold resolution at hbase
  cases base with
  | qualifiedGeneric => cases hbase
  | qualified text => cases hbase
  | named name =>
      dsimp only at hbase
      split at hbase
      · next declaration hdeclaration =>
          injection hbase with hbase
          injection hbase with hbase
          exact hbase ▸ hfile.shown hdeclaration
      · split at hbase
        · next specifier exported _ =>
            unfold resolutionOfImport at hbase
            split at hbase
            · cases hbase
            · cases hbase
            · next path hpath =>
                split at hbase
                · cases hbase
                · next target htarget =>
                    injection hbase with hbase
                    obtain ⟨declaration, hdeclaration, rfl⟩ := Option.map_eq_some_iff.mp hbase
                    exact (shownFile_of_moduleFor? hpath htarget).shown hdeclaration
        · cases hbase

/-- Whatever can be reached from a declaration that is shown is shown too. -/
theorem Shown.exists_of_reaches (hn : Shown P fs n) {key : DeclarationKey}
    (hreach : Reaches (basesOf P fs) n.key key) : ∃ m, Shown P fs m ∧ m.key = key := by
  induction hreach with
  | refl => exact ⟨n, hn, rfl⟩
  | tail _ hstep ih =>
      obtain ⟨m, hm, rfl⟩ := ih
      rw [hm.basesOf_key, List.mem_filterMap] at hstep
      obtain ⟨base, -, hbase⟩ := hstep
      obtain ⟨k, hk, rfl⟩ := Option.map_eq_some_iff.mp hbase
      cases hresolution : resolution P fs m.1 base with
      | error e => simp [hresolution, Except.toOption] at hk
      | ok found =>
          obtain rfl : found = some k := by simpa [hresolution, Except.toOption] using hk
          exact ⟨k, hm.toShownFile.shown_of_resolution hresolution, rfl⟩

/-! ## Walking the graph -/

/-- A walk from the declarations of `todo` that visits the given nodes. -/
structure Explores (P : Project) (fs : FileSystem) (todo : List DeclarationKey) (w : Walk)
    (nodes : List Node) (after : Walk) : Prop where
  order : DepthFirst (basesOf P fs) w.expanded todo (nodes.map Node.key)
  expanded_eq : after.expanded = w.expanded ++ nodes.map Node.key
  keeps : Extends fs w.project after.project
  shown : ∀ n ∈ nodes, Shown P fs n

/-- What holds whenever a declaration is about to be visited: the walk sees the files of `P`, the
declarations that are being expanded are marked, and the depth that is left is enough for all
declarations that are not among them. -/
structure Ready (P : Project) (fs : FileSystem) (fuel : ℕ) (path : List DeclarationKey)
    (w : Walk) : Prop where
  view : SameView fs w.project P
  marked : path ⊆ w.expanded
  inSight : path ⊆ keysInSight P fs
  nodup : path.Nodup
  enough : declarationBound fs P < path.length + fuel

namespace Explores

variable {todo more : List DeclarationKey} {w mid after : Walk} {nodes further : List Node}

theorem append (hfirst : Explores P fs todo w nodes mid)
    (hsecond : Explores P fs more mid further after) :
    Explores P fs (todo ++ more) w (nodes ++ further) after where
  order := by
    rw [List.map_append]
    exact hfirst.order.append (hfirst.expanded_eq ▸ hsecond.order)
  expanded_eq := by
    rw [hsecond.expanded_eq, hfirst.expanded_eq, List.map_append, List.append_assoc]
  keeps := hfirst.keeps.trans hsecond.keeps
  shown n hn := (List.mem_append.mp hn).elim (hfirst.shown n) (hsecond.shown n)

end Explores

namespace Ready

variable {fuel : ℕ} {path : List DeclarationKey} {w after : Walk}

/-- At its start a walk has everything still ahead of it. -/
theorem start (fs : FileSystem) (P : Project) :
    Ready P fs (declarationBound fs P + 1) [] ⟨P, [], []⟩ where
  view := .refl fs P
  marked := List.nil_subset _
  inSight := List.nil_subset _
  nodup := List.nodup_nil
  enough := by simp

/-- Walking on leaves everything as it has to be. -/
theorem mono (hready : Ready P fs fuel path w) (hon : Continues fs w after) :
    Ready P fs fuel path after :=
  { hready with
    view := hon.keeps.sameView.trans hready.view
    marked := fun _ hkey => hon.expanded_subset (hready.marked hkey) }

/-- There is always depth left. -/
theorem fuel_pos (hready : Ready P fs fuel path w) : fuel ≠ 0 := by
  have := length_le_declarationBound hready.nodup hready.inSight
  have := hready.enough
  omega

/-- Expanding one more declaration uses up one unit of depth. -/
theorem expanding (hready : Ready P fs (fuel + 1) path w) (hn : Shown P fs n)
    (hnew : n.key ∉ path) :
    Ready P fs fuel (n.key :: path) (Walking.marking w n.key) where
  view := hready.view
  marked key hkey := by
    rcases List.mem_cons.mp hkey with rfl | hkey
    · exact List.mem_append_right _ (List.mem_singleton.mpr rfl)
    · exact List.mem_append_left _ (hready.marked hkey)
  inSight key hkey := by
    rcases List.mem_cons.mp hkey with rfl | hkey
    · exact hn.key_mem
    · exact hready.inSight hkey
  nodup := List.nodup_cons.mpr ⟨hnew, hready.nodup⟩
  enough := by
    have := hready.enough
    rw [List.length_cons]
    omega

end Ready

/-! ## Going through bases -/

/-- How a walk that is ready finds what a base stands for: it reads one more file at most, which
changes nothing that is seen. -/
structure Finds (P : Project) (fs : FileSystem) (fuel : ℕ) (path : List DeclarationKey)
    (file : ParsedFile) (base : BaseType) (w : Walk) (target : Except Fault (Option Node))
    (found : Walk) : Prop where
  run_eq : (resolveBase fs file base).run w = (target, found)
  resolution_eq : resolution P fs file base = target
  keeps : Extends fs w.project found.project
  expanded_eq : found.expanded = w.expanded
  ready : Ready P fs fuel path found

/-- How going on from the bases of a file, one after the other, comes to its end.  A failure ends
it; what the bases behind another one yield joins what that one yields. -/
inductive BasesRun {β : Type} (P : Project) (fs : FileSystem) (fuel : ℕ)
    (path : List DeclarationKey) (file : ParsedFile)
    (go : ParsedFile → Declaration → Walking (List β)) :
    List BaseType → Walk → Except Fault (List (List β)) × Walk → Prop
  | nil (w : Walk) : BasesRun P fs fuel path file go [] w (.ok [], w)
  /-- Finding what the base stands for fails. -/
  | fault {base rest w e found} (hfinds : Finds P fs fuel path file base w (.error e) found) :
      BasesRun P fs fuel path file go (base :: rest) w (.error e, found)
  /-- The base stands for nothing. -/
  | nothing {base rest w found r} (hfinds : Finds P fs fuel path file base w (.ok none) found)
      (hrest : BasesRun P fs fuel path file go rest found r) :
      BasesRun P fs fuel path file go (base :: rest) w (r.1.map ([] :: ·), r.2)
  /-- Going on from the base fails. -/
  | broken {base rest w m found e last}
      (hfinds : Finds P fs fuel path file base w (.ok (some m)) found)
      (hgo : (go m.1 m.2).run found = (.error e, last)) (hlast : Ready P fs fuel path last) :
      BasesRun P fs fuel path file go (base :: rest) w (.error e, last)
  /-- Going on from the base succeeds. -/
  | branch {base rest w m found branch last r}
      (hfinds : Finds P fs fuel path file base w (.ok (some m)) found)
      (hgo : (go m.1 m.2).run found = (.ok branch, last)) (hlast : Ready P fs fuel path last)
      (hrest : BasesRun P fs fuel path file go rest last r) :
      BasesRun P fs fuel path file go (base :: rest) w (r.1.map (branch :: ·), r.2)

section Bases

variable {β : Type} {fuel : ℕ} {path : List DeclarationKey} {file : ParsedFile} {base : BaseType}
  {target : Option Node} {w found : Walk}

theorem Ready.finds (hready : Ready P fs fuel path w) (file : ParsedFile) (base : BaseType) :
    ∃ target found, Finds P fs fuel path file base w target found := by
  obtain ⟨found, hfound, hkeeps, hexpanded⟩ := resolveBase_run fs file base w
  exact ⟨_, found, hfound, (resolution_congr hready.view file base).symm, hkeeps, hexpanded,
    hready.mono ⟨hkeeps, by rw [hexpanded]; simp⟩⟩

theorem Finds.baseKey?_eq (hfinds : Finds P fs fuel path file base w (.ok target) found) :
    baseKey? P fs file base = target.map Node.key :=
  baseKey?_of_resolution hfinds.resolution_eq

/-- **The rule for going through bases**: it comes to its end in one of the ways of `BasesRun`, if
going on from a base only adds to what the walk knows. -/
theorem throughBases_basesRun {go : ParsedFile → Declaration → Walking (List β)}
    (hon : ∀ target declaration w, Continues fs w ((go target declaration).run w).2)
    (bases : List BaseType) (hready : Ready P fs fuel path w) :
    BasesRun P fs fuel path file go bases w ((throughBases fs file go bases).run w) := by
  induction bases generalizing w with
  | nil => exact .nil w
  | cons base rest ih =>
      obtain ⟨target, found, hfinds⟩ := hready.finds file base
      rw [throughBases_cons_run, hfinds.run_eq]
      match target with
      | .error e => exact .fault hfinds
      | .ok none => exact .nothing hfinds (ih hfinds.ready)
      | .ok (some m) =>
          have hcontinues := hon m.1 m.2 found
          dsimp only
          rcases hgo : (go m.1 m.2).run found with ⟨_ | nodes, last⟩
          · rw [hgo] at hcontinues
            exact .broken hfinds hgo (hfinds.ready.mono hcontinues)
          · rw [hgo] at hcontinues
            have hlast : Ready P fs fuel path last := hfinds.ready.mono hcontinues
            exact .branch hfinds hgo hlast (ih hlast)

end Bases

/-! ## Preorder -/

/-- Finding a base visits nothing. -/
private theorem Explores.of_finds {fuel : ℕ} {path todo : List DeclarationKey} {file : ParsedFile}
    {base : BaseType} {target : Except Fault (Option Node)} {w found after : Walk}
    {nodes : List Node} (hfinds : Finds P fs fuel path file base w target found)
    (hwalk : Explores P fs todo found nodes after) : Explores P fs todo w nodes after where
  order := hfinds.expanded_eq ▸ hwalk.order
  expanded_eq := hfinds.expanded_eq ▸ hwalk.expanded_eq
  keeps := hfinds.keeps.trans hwalk.keeps
  shown := hwalk.shown

/-- Going through the bases of a file explores what they stand for, if going on from each does. -/
private theorem throughBases_explores {file : ParsedFile} {fuel : ℕ} {path : List DeclarationKey}
    (hfile : ShownFile P fs file) {go : ParsedFile → Declaration → Walking (List Node)}
    (hgo : ∀ m : Node, Shown P fs m → ∀ w, Ready P fs fuel path w → ∀ nodes after,
      (go m.1 m.2).run w = (.ok nodes, after) → Explores P fs [m.key] w nodes after)
    {bases : List BaseType} {w : Walk} {ending : Except Fault (List (List Node)) × Walk}
    (hrun : BasesRun P fs fuel path file go bases w ending) {branches : List (List Node)}
    {after : Walk} (hending : ending = (.ok branches, after)) :
    Explores P fs (bases.filterMap (baseKey? P fs file)) w branches.flatten after := by
  induction hrun generalizing branches with
  | nil w =>
      cases hending
      exact ⟨.done _, by simp, .refl _ _, by simp⟩
  | fault => cases hending
  | nothing hfinds _ ih =>
      obtain ⟨others, rfl, rfl⟩ := Walking.mapped_eq_ok_iff.mp hending
      rw [List.filterMap_cons_none hfinds.baseKey?_eq, List.flatten_cons, List.nil_append]
      exact (ih rfl).of_finds hfinds
  | broken => cases hending
  | branch hfinds hnodes _ _ ih =>
      obtain ⟨others, rfl, rfl⟩ := Walking.mapped_eq_ok_iff.mp hending
      have hbranch := hgo _ (hfile.shown_of_resolution hfinds.resolution_eq) _ hfinds.ready _ _
        hnodes
      rw [List.filterMap_cons_some hfinds.baseKey?_eq, List.flatten_cons]
      exact (hbranch.append (ih rfl)).of_finds hfinds

/-- **A walk without faults goes through the graph in depth-first preorder.** -/
theorem visit_explores (fuel : ℕ) (path : List DeclarationKey) (hn : Shown P fs n) (w : Walk)
    (hready : Ready P fs fuel path w) {nodes : List Node} {after : Walk}
    (hrun : (visit fs fuel path n.1 n.2).run w = (.ok nodes, after)) :
    Explores P fs [n.key] w nodes after := by
  induction fuel generalizing path n w nodes after with
  | zero => exact absurd rfl hready.fuel_pos
  | succ fuel ih =>
      rw [visit_run] at hrun
      have hskip : n.key ∈ w.expanded → Explores P fs [n.key] w [] w := fun hseen =>
        ⟨.skip hseen (.done _), by simp, .refl _ _, by simp⟩
      by_cases hpath : n.key ∈ path
      · -- a cycle: what is being expanded has been listed already
        rw [if_pos hpath] at hrun
        cases hrun
        have := hskip (hready.marked hpath)
        exact ⟨this.order, this.expanded_eq, .refl _ _, this.shown⟩
      · rw [if_neg hpath] at hrun
        by_cases hseen : n.key ∈ w.expanded
        · rw [if_pos hseen] at hrun
          cases hrun
          exact hskip hseen
        · rw [if_neg hseen] at hrun
          have hexpanding := hready.expanding hn hpath
          cases hbelow : (throughBases fs n.1 (visit fs fuel (n.key :: path)) n.2.bases).run
              (Walking.marking w n.key) with
          | mk result last =>
              rw [hbelow] at hrun
              cases result with
              | error e => cases hrun
              | ok branches =>
                  cases hrun
                  have hwalk := throughBases_explores hn.toShownFile
                    (fun m hm w hw nodes after hrun => ih _ hm w hw hrun)
                    (throughBases_basesRun (visit_continues fuel (n.key :: path)) n.2.bases
                      hexpanding) hbelow
                  rw [← hn.basesOf_key] at hwalk
                  refine ⟨.visit hseen ?_, ?_, hwalk.keeps, ?_⟩
                  · rw [List.append_nil]
                    exact hwalk.order
                  · rw [hwalk.expanded_eq, Walking.marking, List.map_cons, List.append_assoc]
                    rfl
                  · exact List.forall_mem_cons.mpr ⟨hn, hwalk.shown⟩

end ComponentDocs.Extraction
