import Mathlib.Data.List.Induction
import ComponentDocs.Proofs.Extraction.InheritanceOrder
import ComponentDocs.Proofs.Extraction.Lockstep

/-!
# Plain expansion

A walk marks the declarations that it has expanded and passes over them when it meets them again.
Plain expansion marks nothing: it expands a base wherever it is met, unless the base is being
expanded already.  It may go through a declaration many times, and each time it may be cut short at
other places, since other declarations are being expanded.

Still both list the same properties (`inherited_eq_plainExpansion`).  The reason is what a walk
knows of the declarations it has finished, the marked ones that are not on its path: whatever such a
declaration builds on has been marked, too (`Finished`).  So expanding it once more meets nothing
but marked declarations, and their properties have all been listed.
-/

namespace ComponentDocs.Extraction

open Source Project

/-! ## Expanding without marks -/

/-- What going on from the bases of a file yields, one after the other; a base that stands for
nothing yields nothing. -/
def acrossBases {β : Type} (P : Project) (fs : FileSystem) (file : ParsedFile)
    (go : Node → Except Fault (List β)) (bases : List BaseType) : Except Fault (List (List β)) :=
  bases.mapM fun base => do
    match ← resolution P fs file base with
    | some m => go m
    | none => return []

/-- The properties of a declaration and its bases, to a bounded depth: its own ones, followed by
those of each base in order, unless the base is the declaration itself or one of those on the path
that leads to it; of each name the first. -/
def plainExpansion (P : Project) (fs : FileSystem) (setting : Setting) :
    ℕ → List DeclarationKey → Node → Except Fault (List Property)
  | 0, _, _ => return []
  | depth + 1, path, n => do
    let own := members setting n.2
    if !setting.selection.inheritedProperties then return firstOfEachName own
    let inherited ← acrossBases P fs n.1 (fun base =>
      if base.key = n.key ∨ base.key ∈ path then return []
      else plainExpansion P fs setting depth (n.key :: path) base) n.2.bases
    return firstOfEachName (own ++ inherited.flatten)

/-- The declarations that plain expansion goes through, in order and each as often as it does. -/
def plainNodes (P : Project) (fs : FileSystem) :
    ℕ → List DeclarationKey → Node → Except Fault (List Node)
  | 0, _, _ => return []
  | depth + 1, path, n => do
    let below ← acrossBases P fs n.1 (fun base =>
      if base.key = n.key ∨ base.key ∈ path then return []
      else plainNodes P fs depth (n.key :: path) base) n.2.bases
    return n :: below.flatten

section Bases

variable {α β : Type} {P : Project} {fs : FileSystem} {file : ParsedFile}

@[simp] theorem acrossBases_nil (go : Node → Except Fault (List β)) :
    acrossBases P fs file go [] = .ok [] := rfl

theorem acrossBases_cons (go : Node → Except Fault (List β)) (base : BaseType)
    (rest : List BaseType) :
    acrossBases P fs file go (base :: rest) =
      match resolution P fs file base with
      | .error e => .error e
      | .ok none => (acrossBases P fs file go rest).map ([] :: ·)
      | .ok (some m) =>
        match go m with
        | .error e => .error e
        | .ok found => (acrossBases P fs file go rest).map (found :: ·) := by
  unfold acrossBases
  rw [List.mapM_cons]
  cases resolution P fs file base with
  | error e => rfl
  | ok target =>
      cases target with
      | none => rfl
      | some m =>
          simp only [bind, Except.bind]
          cases go m <;> rfl

/-- Changing what each base yields changes what all of them yield. -/
theorem acrossBases_map (f : List α → List β) (hf : f [] = []) (go : Node → Except Fault (List α))
    {gone : Node → Except Fault (List β)} (hgo : ∀ m, gone m = (go m).map f)
    (bases : List BaseType) :
    acrossBases P fs file gone bases = (acrossBases P fs file go bases).map (List.map f) := by
  induction bases with
  | nil => rfl
  | cons base rest ih =>
      rw [acrossBases_cons, acrossBases_cons, ih]
      cases resolution P fs file base with
      | error e => rfl
      | ok target =>
          cases target with
          | none =>
              dsimp only
              cases acrossBases P fs file go rest with
              | error e => rfl
              | ok others => simp [Except.map, hf]
          | some m =>
              dsimp only
              rw [hgo m]
              cases go m with
              | error e => rfl
              | ok found =>
                  cases acrossBases P fs file go rest with
                  | error e => rfl
                  | ok others => rfl

end Bases

variable {P : Project} {fs : FileSystem}

/-- What plain expansion lists are the properties of the declarations it goes through. -/
theorem plainExpansion_eq_map_plainNodes {setting : Setting}
    (hinherited : setting.selection.inheritedProperties = true) (depth : ℕ)
    (path : List DeclarationKey) (n : Node) :
    plainExpansion P fs setting depth path n =
      (plainNodes P fs depth path n).map (listed setting) := by
  induction depth generalizing path n with
  | zero => rfl
  | succ depth ih =>
      rw [plainExpansion, plainNodes, hinherited, acrossBases_map (listed setting) rfl
        fun base => if base.key = n.key ∨ base.key ∈ path then return []
          else plainNodes P fs depth (n.key :: path) base]
      · cases acrossBases P fs n.1 _ n.2.bases with
        | error e => rfl
        | ok branches =>
            simp only [Bool.not_true, Bool.false_eq_true, if_false, Except.map, bind, Except.bind,
              pure, Except.pure]
            rw [listed_cons_flatten]
      · intro base
        by_cases hcut : base.key = n.key ∨ base.key ∈ path
        · rw [if_pos hcut, if_pos hcut]
          rfl
        · rw [if_neg hcut, if_neg hcut, ih]

/-! ## Each only where it is first met -/

section FirstMet

variable {α : Type} [BEq α] [LawfulBEq α]

private theorem eraseDups_of_nodup {as : List α} (has : as.Nodup) : as.eraseDups = as := by
  induction as with
  | nil => rfl
  | cons a rest ih =>
      obtain ⟨hnew, hrest⟩ := List.nodup_cons.mp has
      have hkept : rest.filter (fun b => !b == a) = rest := by
        refine List.filter_eq_self.mpr fun b hb => ?_
        have hne : b ≠ a := fun heq => hnew (heq ▸ hb)
        simpa using hne
      rw [List.eraseDups_cons, hkept, ih hrest]

private theorem nodup_eraseDups (as : List α) : as.eraseDups.Nodup := by
  -- the recursion goes on with a filtered rest, so the induction is on the length
  induction h : as.length using Nat.strong_induction_on generalizing as with
  | _ length ih =>
      cases as with
      | nil => exact List.nodup_nil
      | cons a rest =>
          have hshorter : (rest.filter fun b => !b == a).length < length := by
            have hfilter := List.length_filter_le (fun b => !b == a) rest
            rw [List.length_cons] at h
            omega
          rw [List.eraseDups_cons, List.nodup_cons]
          exact ⟨by simp, ih _ hshorter _ rfl⟩

private theorem removeAll_eq_nil {as bs : List α} (hsubset : bs ⊆ as) : bs.removeAll as = [] := by
  refine List.filter_eq_nil_iff.mpr fun b hb => ?_
  simpa using hsubset hb

private theorem eraseDups_append_of_subset {as bs : List α} (hsubset : bs ⊆ as) :
    (as ++ bs).eraseDups = as.eraseDups := by
  rw [List.eraseDups_append, removeAll_eq_nil hsubset, List.eraseDups_nil, List.append_nil]

private theorem eraseDups_eraseDups_append (as bs : List α) :
    (as.eraseDups ++ bs).eraseDups = (as ++ bs).eraseDups := by
  have hsame : bs.removeAll as.eraseDups = bs.removeAll as := by
    refine List.filter_congr fun b _ => ?_
    simp
  rw [List.eraseDups_append, List.eraseDups_append, hsame,
    eraseDups_of_nodup (nodup_eraseDups as)]

/-- What is listed of a key where it comes up again has been listed before. -/
theorem firstOfEachName_flatMap_eraseDups (own : α → List Property) (keys : List α) :
    firstOfEachName (keys.eraseDups.flatMap own) = firstOfEachName (keys.flatMap own) := by
  -- `eraseDups` keeps a key where it comes up first, so the last key is the one to take off
  induction keys using List.reverseRecOn with
  | nil => rfl
  | append_singleton keys key ih =>
      have hall : firstOfEachName (keys.eraseDups.flatMap own ++ own key) =
          firstOfEachName (keys.flatMap own ++ own key) := by
        rw [← firstOfEachName_firstOfEachName_append, ih,
          firstOfEachName_firstOfEachName_append]
      rw [List.flatMap_append, List.flatMap_singleton, ← hall]
      by_cases hmem : key ∈ keys
      · have hlisted : own key ⊆ keys.eraseDups.flatMap own := by
          intro p hp
          exact List.mem_flatMap.mpr ⟨key, List.mem_eraseDups.mpr hmem, hp⟩
        rw [eraseDups_append_of_subset (by simpa using hmem),
          firstOfEachName_append_of_subset hlisted]
      · have hnew : [key].removeAll keys = [key] := by
          refine List.filter_eq_self.mpr ?_
          simpa using hmem
        have hsingle : [key].eraseDups = [key] := eraseDups_of_nodup (List.nodup_singleton key)
        rw [List.eraseDups_append, hnew, hsingle, List.flatMap_append, List.flatMap_singleton]

end FirstMet

/-! ## What a walk knows of the declarations it has finished -/

/-- What each of the bases of a file stands for can be found and has been marked. -/
def Covered (P : Project) (fs : FileSystem) (file : ParsedFile) (bases : List BaseType)
    (marked : List DeclarationKey) : Prop :=
  ∀ base ∈ bases, ∃ target, resolution P fs file base = .ok target ∧
    ∀ m : Node, target = some m → m.key ∈ marked

/-- The bases of the declarations that are marked but no longer on the path are marked as well. -/
structure Finished (P : Project) (fs : FileSystem) (path marked : List DeclarationKey) : Prop where
  nodup : marked.Nodup
  covered : ∀ n, Shown P fs n → n.key ∈ marked → n.key ∉ path →
    Covered P fs n.1 n.2.bases marked

/-- How a walk that comes from `w` compares with plain expansion: either both meet the same fault,
or the walk marks what plain expansion goes through, each declaration where it is first met. -/
inductive Mirrors {α : Type} (P : Project) (fs : FileSystem) (path : List DeclarationKey)
    (w : Walk) (reached : List DeclarationKey → Prop) :
    Except Fault α × Walk → Except Fault (List Node) → Prop
  | fault (e : Fault) (after : Walk) : Mirrors P fs path w reached (.error e, after) (.error e)
  | done (a : α) (after : Walk) (all : List Node) (hshown : ∀ m ∈ all, Shown P fs m)
      (hmarked : after.expanded = (w.expanded ++ all.map Node.key).eraseDups)
      (hfinished : Finished P fs path after.expanded) (hreached : reached after.expanded) :
      Mirrors P fs path w reached (.ok a, after) (.ok all)

variable {file : ParsedFile} {bases : List BaseType} {path marked larger : List DeclarationKey}
  {fuel depth : ℕ} {n : Node} {w : Walk}

theorem Covered.mono (hcovered : Covered P fs file bases marked) (hlarger : marked ⊆ larger) :
    Covered P fs file bases larger := by
  intro base hbase
  obtain ⟨target, htarget, hmarked⟩ := hcovered base hbase
  exact ⟨target, htarget, fun m hm => hlarger (hmarked m hm)⟩

/-- A declaration that is about to be expanded is marked and put on the path. -/
theorem Finished.expanding (hfinished : Finished P fs path w.expanded)
    (hnew : n.key ∉ w.expanded) :
    Finished P fs (n.key :: path) (Walking.marking w n.key).expanded where
  nodup := by
    refine List.nodup_append.mpr ⟨hfinished.nodup, List.nodup_singleton _, ?_⟩
    intro key hkey other hother
    rw [List.mem_singleton.mp hother]
    exact fun heq => hnew (heq ▸ hkey)
  covered := by
    intro m hm hmarked hpath
    rw [List.mem_cons, not_or] at hpath
    have hbefore : m.key ∈ w.expanded := by
      rcases List.mem_append.mp hmarked with hmarked | hmarked
      · exact hmarked
      · exact absurd (List.mem_singleton.mp hmarked) hpath.1
    exact (hfinished.covered m hm hbefore hpath.2).mono (List.subset_append_left _ _)

/-- A declaration all of whose bases have been marked leaves the path. -/
theorem Finished.finish (hfinished : Finished P fs (n.key :: path) marked) (hn : Shown P fs n)
    (hcovered : Covered P fs n.1 n.2.bases marked) : Finished P fs path marked where
  nodup := hfinished.nodup
  covered := by
    intro m hm hmarked hpath
    by_cases hsame : m.key = n.key
    · rw [hm.eq_of_key_eq hn hsame]
      exact hcovered
    · exact hfinished.covered m hm hmarked fun hmem =>
        (List.mem_cons.mp hmem).elim hsame hpath

private theorem acrossBases_eq_ok {β : Type} (good : β → Prop)
    (go : Node → Except Fault (List β))
    (hgo : ∀ base ∈ bases, ∃ target, resolution P fs file base = .ok target ∧
      ∀ m, target = some m → ∃ found, go m = .ok found ∧ ∀ b ∈ found, good b) :
    ∃ branches, acrossBases P fs file go bases = .ok branches ∧ ∀ b ∈ branches.flatten, good b := by
  induction bases with
  | nil => exact ⟨[], rfl, by simp⟩
  | cons base rest ih =>
      rw [List.forall_mem_cons] at hgo
      obtain ⟨⟨target, htarget, hfound⟩, hrest⟩ := hgo
      obtain ⟨others, hothers, hgood⟩ := ih hrest
      rw [acrossBases_cons, htarget, hothers]
      cases target with
      | none => exact ⟨[] :: others, rfl, by simpa using hgood⟩
      | some m =>
          obtain ⟨found, hm, hgoodFound⟩ := hfound m rfl
          dsimp only
          rw [hm]
          refine ⟨found :: others, rfl, fun b hb => ?_⟩
          rw [List.flatten_cons, List.mem_append] at hb
          exact hb.elim (hgoodFound b) (hgood b)

/-- **Expanding a finished declaration once more meets marked declarations only.** -/
theorem plainNodes_of_finished (hfinished : Finished P fs path marked) (depth : ℕ)
    (hlarger : path ⊆ larger) (hn : Shown P fs n) (hmarked : n.key ∈ marked)
    (hnew : n.key ∉ larger) :
    ∃ nodes, plainNodes P fs depth larger n = .ok nodes ∧
      ∀ m ∈ nodes, Shown P fs m ∧ m.key ∈ marked := by
  -- the path grows on the way down; what is cut short by it only makes the list shorter
  induction depth generalizing larger n with
  | zero => exact ⟨[], rfl, by simp⟩
  | succ depth ih =>
      have hcovered := hfinished.covered n hn hmarked fun hpath => hnew (hlarger hpath)
      obtain ⟨branches, hbranches, hall⟩ := acrossBases_eq_ok
        (fun m : Node => Shown P fs m ∧ m.key ∈ marked)
        (fun base => if base.key = n.key ∨ base.key ∈ larger then return []
          else plainNodes P fs depth (n.key :: larger) base) (by
          intro base hbase
          obtain ⟨target, htarget, hnext⟩ := hcovered base hbase
          refine ⟨target, htarget, fun (m : Node) hm => ?_⟩
          subst hm
          by_cases hcut : m.key = n.key ∨ m.key ∈ larger
          · exact ⟨[], if_pos hcut, by simp⟩
          · rw [if_neg hcut]
            refine ih (fun key hkey => List.mem_cons_of_mem _ (hlarger hkey))
              (hn.toShownFile.shown_of_resolution htarget) (hnext m rfl) ?_
            rwa [List.mem_cons])
      refine ⟨n :: branches.flatten, ?_, List.forall_mem_cons.mpr ⟨⟨hn, hmarked⟩, hall⟩⟩
      rw [plainNodes, hbranches]
      rfl

/-! ## Walking and expanding side by side -/

/-- Going through the bases of a file mirrors plain expansion, if going on from each base does. -/
private theorem throughBases_mirrors (hfile : ShownFile P fs file)
    {go : ParsedFile → Declaration → Walking (List Node)}
    (plain : Node → Except Fault (List Node))
    (hgo : ∀ m : Node, Shown P fs m → ∀ w, Ready P fs fuel path w →
      Finished P fs path w.expanded →
        Mirrors P fs path w (m.key ∈ ·) ((go m.1 m.2).run w) (plain m))
    {ending : Except Fault (List (List Node)) × Walk}
    (hrun : BasesRun P fs fuel path file go bases w ending)
    (hfinished : Finished P fs path w.expanded) :
    Mirrors P fs path w (Covered P fs file bases) ending
      ((acrossBases P fs file plain bases).map List.flatten) := by
  induction hrun with
  | nil w =>
      refine .done [] w [] (by simp) ?_ hfinished fun base hbase => absurd hbase List.not_mem_nil
      rw [List.map_nil, List.append_nil, eraseDups_of_nodup hfinished.nodup]
  | fault hfinds =>
      rw [acrossBases_cons, hfinds.resolution_eq]
      exact .fault _ _
  | @nothing _ rest _ _ _ hfinds _ ih =>
      have hrest := ih (hfinds.expanded_eq ▸ hfinished)
      rw [acrossBases_cons, hfinds.resolution_eq]
      dsimp only
      generalize acrossBases P fs file plain rest = across at hrest ⊢
      cases across with
      | error e =>
          cases hrest
          exact .fault e _
      | ok others =>
          cases hrest with
          | done a after _ hshown hmarked hlast hcovered =>
              refine .done ([] :: a) after _ hshown ?_ hlast ?_
              · rw [hmarked, hfinds.expanded_eq]
                rfl
              · exact List.forall_mem_cons.mpr ⟨⟨none, hfinds.resolution_eq, by simp⟩, hcovered⟩
  | @broken _ _ _ m found _ _ hfinds hnodes _ =>
      have hbranch := hgo m (hfile.shown_of_resolution hfinds.resolution_eq) found hfinds.ready
        (hfinds.expanded_eq ▸ hfinished)
      rw [acrossBases_cons, hfinds.resolution_eq]
      rw [hnodes] at hbranch
      dsimp only
      generalize plain m = nodes at hbranch ⊢
      cases hbranch
      exact .fault _ _
  | @branch _ rest _ m found _ _ _ hfinds hnodes _ _ ih =>
      have hbranch := hgo m (hfile.shown_of_resolution hfinds.resolution_eq) found hfinds.ready
        (hfinds.expanded_eq ▸ hfinished)
      rw [acrossBases_cons, hfinds.resolution_eq]
      rw [hnodes] at hbranch
      dsimp only
      generalize plain m = plainly at hbranch ⊢
      cases hbranch with
      | done _ _ nodes hshown hmarked hlast hreached =>
          have hrest := ih hlast
          dsimp only
          generalize acrossBases P fs file plain rest = across at hrest ⊢
          cases across with
          | error e =>
              cases hrest
              exact .fault e _
          | ok others =>
              -- what the branch marked comes in front of what the others do
              cases hrest with
              | done _ after _ hshown' hmarked' hafter hcovered =>
                  refine .done _ after (nodes ++ others.flatten) ?_ ?_ hafter ?_
                  · exact fun k hk => (List.mem_append.mp hk).elim (hshown k) (hshown' k)
                  · rw [hmarked', hmarked, hfinds.expanded_eq, eraseDups_eraseDups_append,
                      List.map_append, List.append_assoc]
                  · refine List.forall_mem_cons.mpr
                      ⟨⟨some m, hfinds.resolution_eq, fun k hk => ?_⟩, hcovered⟩
                    obtain rfl := Option.some.inj hk
                    rw [hmarked', List.mem_eraseDups]
                    exact List.mem_append_left _ hreached

/-- **A walk marks what plain expansion goes through, each declaration where it is first met.** -/
theorem visit_mirrors (fuel : ℕ) {depth : ℕ} (hn : Shown P fs n) (hnew : n.key ∉ path)
    (hready : Ready P fs fuel path w) (hdepth : declarationBound fs P < path.length + depth)
    (hfinished : Finished P fs path w.expanded) :
    Mirrors P fs path w (n.key ∈ ·) ((visit fs fuel path n.1 n.2).run w)
      (plainNodes P fs depth path n) := by
  induction fuel generalizing depth path n w with
  | zero => exact absurd rfl hready.fuel_pos
  | succ fuel ih =>
      rw [visit_run, if_neg hnew]
      by_cases hseen : n.key ∈ w.expanded
      · -- met again: plain expansion comes upon nothing that is new
        obtain ⟨nodes, hnodes, hall⟩ :=
          plainNodes_of_finished hfinished depth (List.Subset.refl _) hn hseen hnew
        rw [if_pos hseen, hnodes]
        refine .done [] w nodes (fun m hm => (hall m hm).1) ?_ hfinished hseen
        have hsubset : nodes.map Node.key ⊆ w.expanded := by
          intro key hkey
          obtain ⟨m, hm, rfl⟩ := List.mem_map.mp hkey
          exact (hall m hm).2
        rw [eraseDups_append_of_subset hsubset, eraseDups_of_nodup hfinished.nodup]
      · rw [if_neg hseen]
        have hexpanding := hready.expanding hn hnew
        have hbound := length_le_declarationBound hready.nodup hready.inSight
        -- the path holds different declarations in sight, so it leaves some depth
        obtain ⟨depth, rfl⟩ : ∃ smaller, depth = smaller + 1 :=
          Nat.exists_eq_succ_of_ne_zero (by omega)
        have hmarking := hfinished.expanding hseen
        have hbelow := throughBases_mirrors hn.toShownFile
          (fun base => if base.key = n.key ∨ base.key ∈ path then return []
            else plainNodes P fs depth (n.key :: path) base)
          (by
            intro m hm v hv hvFinished
            by_cases hcut : m.key ∈ n.key :: path
            · -- a cycle: plain expansion stops here as well
              obtain ⟨fuel, rfl⟩ := Nat.exists_eq_succ_of_ne_zero hv.fuel_pos
              rw [visit_run, if_pos hcut, if_pos (List.mem_cons.mp hcut)]
              refine .done [] _ [] (by simp) ?_ hvFinished (hv.marked hcut)
              rw [List.map_nil, List.append_nil, eraseDups_of_nodup hvFinished.nodup]
              rfl
            · rw [if_neg (mt List.mem_cons.mpr hcut)]
              refine ih hm hcut hv ?_ hvFinished
              rw [List.length_cons]
              omega)
          (throughBases_basesRun (visit_continues fuel (n.key :: path)) n.2.bases hexpanding)
          hmarking
        rw [plainNodes]
        dsimp only
        generalize (throughBases fs n.1 (visit fs fuel (n.key :: path)) n.2.bases).run
          (Walking.marking w n.key) = r at hbelow ⊢
        generalize acrossBases P fs n.1 _ n.2.bases = across at hbelow ⊢
        cases across with
        | error e =>
            cases hbelow
            exact .fault e _
        | ok others =>
            cases hbelow with
            | done a after _ hshown hmarked hafter hcovered =>
                have hkeys : after.expanded =
                    (w.expanded ++ (n :: others.flatten).map Node.key).eraseDups := by
                  rw [hmarked, Walking.marking, List.map_cons, List.append_assoc]
                  rfl
                have hself : n.key ∈ after.expanded := by
                  rw [hkeys, List.mem_eraseDups]
                  simp
                exact .done _ after (n :: others.flatten) (List.forall_mem_cons.mpr ⟨hn, hshown⟩)
                  hkeys (hafter.finish hn hcovered) hself

/-! ## The same properties -/

/-- A declaration of a file that has been added is shown by the project. -/
theorem shown_of_add {Q : Project} {place : Path} {name : String} {declaration : Declaration}
    (hfile : P.add fs place = .ok (file, Q))
    (hdeclaration : file.declaration? name = some declaration) :
    Shown Q fs (file, declaration) := by
  rw [add_eq] at hfile
  cases hplace : fs.canonical place with
  | error e => simp [hplace] at hfile
  | ok found =>
      cases hshown : P.fileAt fs found with
      | error e => simp [hplace, hshown] at hfile
      | ok other =>
          simp only [hplace, hshown, Except.ok.injEq, Prod.mk.injEq] at hfile
          obtain ⟨rfl, rfl⟩ := hfile
          obtain rfl := path_of_fileAt hshown
          have hsettled := FileSystem.settled_of_canonical hplace
          have hfileShown : ShownFile P fs other := ⟨hsettled, hshown⟩
          exact (hfileShown.shown hdeclaration).congr (extends_keeping hshown).sameView

/-- The declarations that a walk expands are those that plain expansion goes through, each where it
is first met. -/
private theorem listed_eq_of_eraseDups {setting : Setting} {nodes all : List Node}
    (hnodes : ∀ m ∈ nodes, Shown P fs m) (hall : ∀ m ∈ all, Shown P fs m)
    (hkeys : nodes.map Node.key = (all.map Node.key).eraseDups) :
    listed setting nodes = listed setting all := by
  rw [listed_eq_of_shown hnodes, listed_eq_of_shown hall, hkeys,
    firstOfEachName_flatMap_eraseDups]

/-- **A walk lists what plain expansion lists**, property by property and in the same order, or
meets the same fault: passing over the declarations that have been expanded before never changes
the properties.  So it is for every declaration of a file that has been added to a project, however
the declarations build on each other, and to every depth that all of them fit into. -/
theorem inherited_eq_plainExpansion {Q : Project} {place : Path} {name : String}
    {declaration : Declaration} (hfile : P.add fs place = .ok (file, Q))
    (hdeclaration : file.declaration? name = some declaration) (setting : Setting)
    (notes : List Diagnostic) (hdepth : declarationBound fs Q < depth) :
    ((inherited fs setting file declaration).run ⟨Q, [], notes⟩).1 =
      plainExpansion Q fs setting depth [] (file, declaration) := by
  have hroot : Shown Q fs (file, declaration) := shown_of_add hfile hdeclaration
  rw [inherited, Walking.run_bind, Walking.run_get]
  dsimp only
  cases hinherited : setting.selection.inheritedProperties with
  | false =>
      obtain ⟨depth, rfl⟩ : ∃ smaller, depth = smaller + 1 :=
        Nat.exists_eq_succ_of_ne_zero (by omega)
      rw [expand_run, if_neg List.not_mem_nil, if_neg List.not_mem_nil, hinherited,
        plainExpansion, hinherited]
      rfl
  | true =>
      rw [expand_eq_map_visit hinherited, Walking.run_map,
        plainExpansion_eq_map_plainNodes hinherited]
      have hready : Ready Q fs (declarationBound fs Q + 1) [] ⟨Q, [], notes⟩ :=
        (Ready.start fs Q).mono ⟨.refl fs Q, List.Subset.refl _⟩
      have hfinished : Finished Q fs [] [] := ⟨List.nodup_nil, by simp⟩
      have hmirrors := visit_mirrors (declarationBound fs Q + 1) hroot List.not_mem_nil hready
        (by simpa using hdepth) hfinished
      dsimp only at hmirrors
      generalize hrun : (visit fs (declarationBound fs Q + 1) [] file declaration).run
        ⟨Q, [], notes⟩ = r at hmirrors ⊢
      generalize plainNodes Q fs depth [] (file, declaration) = plain at hmirrors ⊢
      cases hmirrors with
      | fault e after => rfl
      | done nodes after all hall hmarked _ _ =>
          have hwalk := visit_explores _ _ hroot _ hready hrun
          have hkeys : nodes.map Node.key = (all.map Node.key).eraseDups := by
            rw [hwalk.expanded_eq] at hmarked
            simpa using hmarked
          exact congrArg Except.ok (listed_eq_of_eraseDups hwalk.shown hall hkeys)

/-- A file whose declarations build on each other in many ways: on a common base, on one base twice,
on themselves and around a cycle. -/
def tangledFiles : FileSystem :=
  FileSystem.write ⟨.directory 0 [], [], []⟩ (Path.ofString "/T.ts") (Text.bytesOf
    ("interface TProps extends B,C,B,TProps\x7ba:A\x7d\ninterface B extends D\x7bb:B\x7d\n" ++
      "interface C extends D,B\x7bc:C\x7d\ninterface D extends B\x7bd:D;a:D\x7d")) 0

theorem tangled_eq_plainExpansion :
    let P : Project := { base := ⟨.root, []⟩ }
    let setting : Setting := { selection := { inheritedProperties := true } }
    ∃ file Q declaration, P.add tangledFiles (Path.ofString "/T.ts") = .ok (file, Q) ∧
      file.declaration? "TProps" = some declaration ∧ declarationBound tangledFiles Q < 999 ∧
      ((inherited tangledFiles setting file declaration).run ⟨Q, [], []⟩).1 =
        plainExpansion Q tangledFiles setting 999 [] (file, declaration) ∧
      (plainExpansion Q tangledFiles setting 999 [] (file, declaration)).toOption.map
        (List.map Property.name) = some ["a", "b", "d", "c"] := by
  intro P setting
  have hfacts : (P.add tangledFiles (Path.ofString "/T.ts")).toOption.map (fun added =>
      ((added.1.declaration? "TProps").map fun declaration =>
        (plainExpansion added.2 tangledFiles setting 999 []
          (added.1, declaration)).toOption.map (List.map Property.name),
        decide (declarationBound tangledFiles added.2 < 999))) =
      some (some (some ["a", "b", "d", "c"]), true) := by
    decide +kernel
  obtain ⟨⟨file, Q⟩, hadded, hfacts⟩ := Option.map_eq_some_iff.mp hfacts
  obtain ⟨hnames, hbound⟩ := Prod.mk.inj hfacts
  obtain ⟨declaration, hdeclaration, hnames⟩ := Option.map_eq_some_iff.mp hnames
  have hfile : P.add tangledFiles (Path.ofString "/T.ts") = .ok (file, Q) := by
    cases hadd : P.add tangledFiles (Path.ofString "/T.ts") with
    | error e => simp [hadd, Except.toOption] at hadded
    | ok added => simpa [hadd, Except.toOption] using hadded
  have hdepth := of_decide_eq_true hbound
  exact ⟨file, Q, declaration, hfile, hdeclaration, hdepth,
    inherited_eq_plainExpansion hfile hdeclaration setting [] hdepth, hnames⟩

end ComponentDocs.Extraction
