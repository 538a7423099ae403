import ComponentDocs.Proofs.Extraction.FirstOfEachName
import ComponentDocs.Proofs.Extraction.Steps

/-!
# The walk behind inheritance

`visit` is the walk of `expand` without the properties: it gives the declarations that are expanded,
in the order in which they are.  What `expand` lists is a function of these declarations
(`expand_eq_map_visit`), so whatever is to be known about the walk is proved of `visit`.
-/

namespace ComponentDocs.Extraction

open Source Project

/-- A declaration with the file in which it stands. -/
abbrev Node := ParsedFile × Declaration

/-- The key under which a walk knows a declaration. -/
def Node.key (n : Node) : DeclarationKey := (n.1.path, n.2.name)

/-- What going on from each base of a declaration yields; a base that stands for nothing yields
nothing. -/
def throughBases {β : Type} (fs : FileSystem) (file : ParsedFile)
    (go : ParsedFile → Declaration → Walking (List β)) (bases : List BaseType) :
    Walking (List (List β)) :=
  bases.mapM fun base => do
    match ← resolveBase fs file base with
    | some (file, declaration) => go file declaration
    | none => return []

/-- The report of a declaration that is met while it is being expanded. -/
def cycleNote (n : Node) : Diagnostic :=
  ⟨n.1.path.toString, .warning,
    "Inheritance cycle through " ++ n.2.name ++ "; not expanding it again"⟩

/-- The declarations that a walk expands, in order, to a bounded depth. -/
def visit (fs : FileSystem) :
    Nat → List DeclarationKey → ParsedFile → Declaration → Walking (List Node)
  | 0, _, _, _ => return []
  | fuel + 1, path, file, declaration => do
    let key := Node.key (file, declaration)
    if path.contains key then
      modify (Walking.noting · (cycleNote (file, declaration)))
      return []
    if (← get).expanded.contains key then return []
    modify (Walking.marking · key)
    let below ← throughBases fs file (visit fs fuel (key :: path)) declaration.bases
    return (file, declaration) :: below.flatten

/-- The properties that the visited declarations themselves list, the first of each name. -/
def listed (setting : Setting) (nodes : List Node) : List Property :=
  firstOfEachName (nodes.flatMap fun n => members setting n.2)

section Bases

variable {α β : Type} {fs : FileSystem} {file : ParsedFile}

@[simp] theorem throughBases_nil (go : ParsedFile → Declaration → Walking (List β)) :
    throughBases fs file go [] = pure [] := rfl

theorem throughBases_cons_run (go : ParsedFile → Declaration → Walking (List β)) (base : BaseType)
    (rest : List BaseType) (w : Walk) :
    (throughBases fs file go (base :: rest)).run w =
      match (resolveBase fs file base).run w with
      | (.error e, after) => (.error e, after)
      | (.ok none, after) =>
        (((throughBases fs file go rest).run after).1.map ([] :: ·),
          ((throughBases fs file go rest).run after).2)
      | (.ok (some (target, declaration)), after) =>
        match (go target declaration).run after with
        | (.error e, last) => (.error e, last)
        | (.ok found, last) =>
          (((throughBases fs file go rest).run last).1.map (found :: ·),
            ((throughBases fs file go rest).run last).2) := by
  unfold throughBases
  rw [List.mapM_cons, Walking.run_bind, Walking.run_bind]
  rcases (resolveBase fs file base).run w with ⟨_ | found, after⟩
  · rfl
  · rcases found with _ | ⟨target, declaration⟩
    · dsimp only
      rw [Walking.run_pure]
      dsimp only
      rw [← Walking.run_map, map_eq_pure_bind]
    · dsimp only
      rcases (go target declaration).run after with ⟨_ | found, last⟩
      · rfl
      · dsimp only
        rw [← Walking.run_map, map_eq_pure_bind]

/-- Changing what each base yields changes what all of them yield. -/
theorem throughBases_map (f : List α → List β) (hf : f [] = [])
    (go : ParsedFile → Declaration → Walking (List α)) (bases : List BaseType) :
    throughBases fs file (fun target declaration => f <$> go target declaration) bases =
      List.map f <$> throughBases fs file go bases := by
  induction bases with
  | nil => simp [throughBases_nil]
  | cons base rest ih =>
      unfold throughBases at ih ⊢
      rw [List.mapM_cons, List.mapM_cons, ih]
      simp only [map_bind, bind_assoc, bind_map_left, map_pure, List.map_cons]
      refine bind_congr fun found => ?_
      rcases found with _ | ⟨target, declaration⟩
      · simp [hf]
      · simp

end Bases

variable {fs : FileSystem}

theorem visit_run (fuel : ℕ) (path : List DeclarationKey) (file : ParsedFile)
    (declaration : Declaration) (w : Walk) :
    (visit fs (fuel + 1) path file declaration).run w =
      if Node.key (file, declaration) ∈ path then
        (.ok [], Walking.noting w (cycleNote (file, declaration)))
      else if Node.key (file, declaration) ∈ w.expanded then (.ok [], w)
      else
        let below := (throughBases fs file (visit fs fuel (Node.key (file, declaration) :: path))
          declaration.bases).run (Walking.marking w (Node.key (file, declaration)))
        (below.1.map fun found => (file, declaration) :: found.flatten, below.2) := by
  rw [visit]
  dsimp only
  by_cases hpath : Node.key (file, declaration) ∈ path
  · rw [if_pos (List.contains_iff_mem.mpr hpath), if_pos hpath]
    rfl
  · rw [if_neg (mt List.contains_iff_mem.mp hpath), if_neg hpath, Walking.run_bind,
      Walking.run_get]
    dsimp only
    by_cases hexpanded : Node.key (file, declaration) ∈ w.expanded
    · rw [if_pos (List.contains_iff_mem.mpr hexpanded), if_pos hexpanded]
      rfl
    · rw [if_neg (mt List.contains_iff_mem.mp hexpanded), if_neg hexpanded, Walking.run_bind,
        Walking.run_modify]
      dsimp only
      rw [← map_eq_pure_bind, Walking.run_map]

/-! ## Relations that a walk respects -/

/-- A relation between walks that holds along every single step. -/
structure Stepwise (fs : FileSystem) (R : Walk → Walk → Prop) : Prop where
  refl : ∀ w, R w w
  trans : ∀ {w mid after}, R w mid → R mid after → R w after
  noting : ∀ w n, R w (Walking.noting w (cycleNote n))
  marking : ∀ w key, R w (Walking.marking w key)
  resolving : ∀ file base w, R w ((resolveBase fs file base).run w).2

namespace Stepwise

variable {R : Walk → Walk → Prop}

/-- Going through the bases of a file respects what going on from each of them does. -/
theorem throughBases {β : Type} (hR : Stepwise fs R) {file : ParsedFile}
    {go : ParsedFile → Declaration → Walking (List β)}
    (hgo : ∀ target declaration w, R w ((go target declaration).run w).2) (bases : List BaseType)
    (w : Walk) : R w ((throughBases fs file go bases).run w).2 := by
  induction bases generalizing w with
  | nil => exact hR.refl w
  | cons base rest ih =>
      have hfirst : R w ((resolveBase fs file base).run w).2 := hR.resolving file base w
      rw [throughBases_cons_run]
      rcases hfound : (resolveBase fs file base).run w with ⟨_ | target, found⟩
      · rwa [hfound] at hfirst
      · rw [hfound] at hfirst
        rcases target with _ | ⟨target, declaration⟩
        · exact hR.trans hfirst (ih found)
        · have hbranch : R found ((go target declaration).run found).2 :=
            hgo target declaration found
          dsimp only
          rcases hrun : (go target declaration).run found with ⟨_ | nodes, last⟩
          · rw [hrun] at hbranch
            exact hR.trans hfirst hbranch
          · rw [hrun] at hbranch
            exact hR.trans hfirst (hR.trans hbranch (ih last))

/-- A whole walk respects what each of its steps does. -/
theorem visit (hR : Stepwise fs R) (fuel : ℕ) (path : List DeclarationKey) (file : ParsedFile)
    (declaration : Declaration) (w : Walk) :
    R w ((visit fs fuel path file declaration).run w).2 := by
  induction fuel generalizing path file declaration w with
  | zero => exact hR.refl w
  | succ fuel ih =>
      rw [visit_run]
      split
      · exact hR.noting w _
      · split
        · exact hR.refl w
        · exact hR.trans (hR.marking w _)
            (hR.throughBases (fun target declaration w => ih _ target declaration w) _ _)

end Stepwise

/-! ## What `expand` lists -/

@[simp] theorem listed_nil (setting : Setting) : listed setting [] = [] := rfl

/-- Listing branch by branch and then once more comes to the same as listing once. -/
theorem listed_cons_flatten (setting : Setting) (n : Node) (branches : List (List Node)) :
    listed setting (n :: branches.flatten) =
      firstOfEachName (members setting n.2 ++ (branches.map (listed setting)).flatten) := by
  unfold listed
  rw [List.flatMap_cons]
  generalize members setting n.2 = own
  induction branches generalizing own with
  | nil => simp
  | cons branch rest ih =>
      have hrest := ih (own ++ branch.flatMap fun n => members setting n.2)
      simp only [List.append_assoc] at hrest
      rw [List.flatten_cons, List.flatMap_append, hrest, List.map_cons, List.flatten_cons,
        ← List.append_assoc, ← List.append_assoc,
        ← firstOfEachName_firstOfEachName_append (own ++ firstOfEachName _),
        firstOfEachName_append_firstOfEachName, firstOfEachName_firstOfEachName_append]

private theorem expand_succ (setting : Setting) (fuel : ℕ) (path : List DeclarationKey)
    (file : ParsedFile) (declaration : Declaration) :
    expand fs setting (fuel + 1) path file declaration = (do
      let key := Node.key (file, declaration)
      if path.contains key then
        modify (Walking.noting · (cycleNote (file, declaration)))
        return []
      if (← get).expanded.contains key then return []
      modify (Walking.marking · key)
      let own := members setting declaration
      if !setting.selection.inheritedProperties then return firstOfEachName own
      let found ← throughBases fs file (expand fs setting fuel (key :: path)) declaration.bases
      return firstOfEachName (own ++ found.flatten)) :=
  rfl

theorem expand_run (setting : Setting) (fuel : ℕ) (path : List DeclarationKey)
    (file : ParsedFile) (declaration : Declaration) (w : Walk) :
    (expand fs setting (fuel + 1) path file declaration).run w =
      if Node.key (file, declaration) ∈ path then
        (.ok [], Walking.noting w (cycleNote (file, declaration)))
      else if Node.key (file, declaration) ∈ w.expanded then (.ok [], w)
      else if setting.selection.inheritedProperties then
        let below := (throughBases fs file
          (expand fs setting fuel (Node.key (file, declaration) :: path))
          declaration.bases).run (Walking.marking w (Node.key (file, declaration)))
        (below.1.map fun found => firstOfEachName (members setting declaration ++ found.flatten),
          below.2)
      else (.ok (firstOfEachName (members setting declaration)),
        Walking.marking w (Node.key (file, declaration))) := by
  rw [expand_succ]
  dsimp only
  by_cases hpath : Node.key (file, declaration) ∈ path
  · rw [if_pos (List.contains_iff_mem.mpr hpath), if_pos hpath]
    rfl
  · rw [if_neg (mt List.contains_iff_mem.mp hpath), if_neg hpath, Walking.run_bind,
      Walking.run_get]
    dsimp only
    by_cases hexpanded : Node.key (file, declaration) ∈ w.expanded
    · rw [if_pos (List.contains_iff_mem.mpr hexpanded), if_pos hexpanded]
      rfl
    · rw [if_neg (mt List.contains_iff_mem.mp hexpanded), if_neg hexpanded, Walking.run_bind,
        Walking.run_modify]
      dsimp only
      cases setting.selection.inheritedProperties with
      | false => rfl
      | true =>
          simp only [Bool.not_true, Bool.false_eq_true, if_false, if_true]
          rw [← map_eq_pure_bind, Walking.run_map]

/-- **What a walk lists are the properties of the declarations it visits.** -/
theorem expand_eq_map_visit {setting : Setting}
    (hinherited : setting.selection.inheritedProperties = true) (fuel : ℕ)
    (path : List DeclarationKey) (file : ParsedFile) (declaration : Declaration) :
    expand fs setting fuel path file declaration =
      listed setting <$> visit fs fuel path file declaration := by
  induction fuel generalizing path file declaration with
  | zero => simp [expand, visit]
  | succ fuel ih =>
      have hbelow : throughBases fs file
            (expand fs setting fuel (Node.key (file, declaration) :: path)) declaration.bases =
          List.map (listed setting) <$> throughBases fs file
            (visit fs fuel (Node.key (file, declaration) :: path)) declaration.bases := by
        rw [← throughBases_map _ rfl]
        congr 1
        exact funext fun target => funext fun base => ih _ target base
      have hrun : ∀ w, (expand fs setting (fuel + 1) path file declaration).run w =
          (listed setting <$> visit fs (fuel + 1) path file declaration).run w := by
        intro w
        rw [Walking.run_map, expand_run, visit_run, hbelow, Walking.run_map, if_pos hinherited]
        split
        · rfl
        · split
          · rfl
          · dsimp only
            cases ((throughBases fs file (visit fs fuel (Node.key (file, declaration) :: path))
              declaration.bases).run (Walking.marking w (Node.key (file, declaration)))).1 with
            | error e => rfl
            | ok branches =>
                simp only [Except.map]
                rw [listed_cons_flatten]
      exact ExceptT.ext (funext hrun)

/-- So does listing respect what each step of the walk does. -/
theorem Stepwise.expand {R : Walk → Walk → Prop} (hR : Stepwise fs R) (setting : Setting)
    (fuel : ℕ) (path : List DeclarationKey) (file : ParsedFile) (declaration : Declaration)
    (w : Walk) : R w ((expand fs setting fuel path file declaration).run w).2 := by
  cases hinherited : setting.selection.inheritedProperties with
  | true =>
      rw [expand_eq_map_visit hinherited, Walking.run_map]
      exact hR.visit fuel path file declaration w
  | false =>
      cases fuel with
      | zero => exact hR.refl w
      | succ fuel =>
          rw [expand_run, hinherited]
          split
          · exact hR.noting w _
          · split
            · exact hR.refl w
            · exact hR.marking w _

/-! ## Walks only add to what they know -/

/-- A walk after some more steps. -/
structure Continues (fs : FileSystem) (w after : Walk) : Prop where
  keeps : Extends fs w.project after.project
  expanded_subset : w.expanded ⊆ after.expanded

/-- Every step of a walk only adds to it. -/
theorem stepwise_continues (fs : FileSystem) : Stepwise fs (Continues fs) where
  refl w := ⟨.refl _ _, List.Subset.refl _⟩
  trans hfirst hsecond := ⟨hfirst.keeps.trans hsecond.keeps,
    fun _ hkey => hsecond.expanded_subset (hfirst.expanded_subset hkey)⟩
  noting w n := ⟨.refl _ _, List.Subset.refl _⟩
  marking w key := ⟨.refl _ _, List.subset_append_left _ _⟩
  resolving file base w := by
    obtain ⟨found, hfound, hkeeps, hexpanded⟩ := resolveBase_run fs file base w
    rw [hfound]
    exact ⟨hkeeps, by rw [hexpanded]; simp⟩

theorem visit_continues (fuel : ℕ) (path : List DeclarationKey) (file : ParsedFile)
    (declaration : Declaration) (w : Walk) :
    Continues fs w ((visit fs fuel path file declaration).run w).2 :=
  (stepwise_continues fs).visit fuel path file declaration w

theorem expand_continues (setting : Setting) (fuel : ℕ) (path : List DeclarationKey)
    (file : ParsedFile) (declaration : Declaration) (w : Walk) :
    Continues fs w ((expand fs setting fuel path file declaration).run w).2 :=
  (stepwise_continues fs).expand setting fuel path file declaration w

end ComponentDocs.Extraction
