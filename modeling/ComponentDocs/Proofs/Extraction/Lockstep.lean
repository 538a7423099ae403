import ComponentDocs.Proofs.Extraction.ComponentWalk

/-!
# Walks side by side

Two walks that start at the same declaration and find the same bases visit the same declarations,
even if their files differ elsewhere and their depth bounds are different (`visit_lockstep`); the
depth that is left never runs out, which `Ready` keeps track of.  If moreover the same is to be
mentioned of the bases, the walks report the same; this is the condition `R` of `Alike` and
`Paired`, which is `False` where the reports do not matter.

Two consequences: what is extracted, and what is reported, depends on no more than the files that a
project shows (`properties_congr`); and what is extracted stays the same when files change, as long
as the file of the component and the bases that are found stay the same (`properties_lockstep`).
-/

namespace ComponentDocs.Extraction

open Source Project

/-! ## The same declarations -/

/-- Declarations from which two projects, each with its own files, find the same bases. -/
structure Agree (S : Node → Prop) (P : Project) (fs : FileSystem) (Q : Project)
    (gs : FileSystem) : Prop where
  shown_left : ∀ n, S n → Shown P fs n
  shown_right : ∀ n, S n → Shown Q gs n
  resolution_eq : ∀ n, S n → ∀ base ∈ n.2.bases,
    resolution P fs n.1 base = resolution Q gs n.1 base
  closed : ∀ n, S n → ∀ base ∈ n.2.bases, ∀ m, resolution P fs n.1 base = .ok (some m) → S m

/-- Two ends of walks with the same result and the same declarations behind them. -/
structure Matching {α : Type} (r s : Except Fault α × Walk) : Prop where
  result_eq : r.1 = s.1
  expanded_eq : r.2.expanded = s.2.expanded

/-- Two ends of walks that match and, under the condition `R`, have the same reports behind them. -/
structure Alike {α : Type} (R : Prop) (r s : Except Fault α × Walk) : Prop
    extends Matching r s where
  diagnostics_eq : R → r.2.diagnostics = s.2.diagnostics

/-- Two walks, each in its own project and with enough depth left, that have the same declarations
behind them and, under the condition `R`, the same reports. -/
structure Paired (R : Prop) (P : Project) (fs : FileSystem) (fuel : ℕ) (Q : Project)
    (gs : FileSystem) (larger : ℕ) (path : List DeclarationKey) (w v : Walk) : Prop where
  left : Ready P fs fuel path w
  right : Ready Q gs larger path v
  expanded_eq : w.expanded = v.expanded
  diagnostics_eq : R → w.diagnostics = v.diagnostics

section Lockstep

variable {R : Prop} {S : Node → Prop} {P Q : Project} {fs gs : FileSystem} {fuel larger : ℕ}
  {path : List DeclarationKey} {w v : Walk}

theorem Alike.mapped {α β : Type} {r s : Except Fault α × Walk} (halike : Alike R r s)
    (f : α → β) : Alike R (r.1.map f, r.2) (s.1.map f, s.2) where
  result_eq := congrArg (Except.map f) halike.result_eq
  expanded_eq := halike.expanded_eq
  diagnostics_eq := halike.diagnostics_eq

/-- A failure of both walks, or any other result that they share. -/
private theorem Paired.alike {α : Type} (hpaired : Paired R P fs fuel Q gs larger path w v)
    (result : Except Fault α) : Alike R (result, w) (result, v) :=
  ⟨⟨rfl, hpaired.expanded_eq⟩, hpaired.diagnostics_eq⟩

/-- What the one walk finds for a base, the other one finds as well, and they stay paired. -/
private theorem Finds.paired {file : ParsedFile} {base : BaseType}
    {target : Except Fault (Option Node)} {found : Walk}
    (hfinds : Finds P fs fuel path file base w target found)
    (hsame : resolution P fs file base = resolution Q gs file base)
    (hmentions : R → mentions P fs file base = mentions Q gs file base)
    (hpaired : Paired R P fs fuel Q gs larger path w v) :
    ∃ other, (resolveBase gs file base).run v = (target, other) ∧
      Paired R P fs fuel Q gs larger path found other := by
  obtain ⟨target', other, hother⟩ := hpaired.right.finds file base
  obtain rfl : target' = target := by
    rw [← hother.resolution_eq, ← hsame, hfinds.resolution_eq]
  have hnotes := diagnostics_resolveBase fs file base w
  have hnotes' := diagnostics_resolveBase gs file base v
  rw [hfinds.run_eq, mentions_congr hpaired.left.view] at hnotes
  rw [hother.run_eq, mentions_congr hpaired.right.view] at hnotes'
  refine ⟨other, hother.run_eq, hfinds.ready, hother.ready, ?_, fun hR => ?_⟩
  · rw [hfinds.expanded_eq, hother.expanded_eq, hpaired.expanded_eq]
  · calc found.diagnostics = w.diagnostics ++ mentions P fs file base := hnotes
      _ = v.diagnostics ++ mentions Q gs file base := by
          rw [hpaired.diagnostics_eq hR, hmentions hR]
      _ = other.diagnostics := hnotes'.symm

/-- Walks that go through the same bases side by side end alike, if going on from each base does. -/
private theorem throughBases_lockstep {file : ParsedFile}
    {go went : ParsedFile → Declaration → Walking (List Node)} {bases : List BaseType}
    (hbases : ∀ base ∈ bases, resolution P fs file base = resolution Q gs file base ∧
      (R → mentions P fs file base = mentions Q gs file base) ∧
      ∀ m : Node, resolution P fs file base = .ok (some m) →
        ∀ w v, Paired R P fs fuel Q gs larger path w v →
          Alike R ((go m.1 m.2).run w) ((went m.1 m.2).run v))
    (hon : ∀ target declaration v, Continues gs v ((went target declaration).run v).2)
    {ending : Except Fault (List (List Node)) × Walk}
    (hrun : BasesRun P fs fuel path file go bases w ending)
    (hpaired : Paired R P fs fuel Q gs larger path w v) :
    Alike R ending ((throughBases gs file went bases).run v) := by
  induction hrun generalizing v with
  | nil w => exact hpaired.alike _
  | fault hfinds =>
      obtain ⟨⟨hsame, hmentions, -⟩, -⟩ := List.forall_mem_cons.mp hbases
      obtain ⟨other, hother, hafter⟩ := hfinds.paired hsame hmentions hpaired
      rw [throughBases_cons_run, hother]
      exact hafter.alike _
  | nothing hfinds _ ih =>
      obtain ⟨⟨hsame, hmentions, -⟩, hrest⟩ := List.forall_mem_cons.mp hbases
      obtain ⟨other, hother, hafter⟩ := hfinds.paired hsame hmentions hpaired
      rw [throughBases_cons_run, hother]
      exact (ih hrest hafter).mapped ([] :: ·)
  | @broken _ _ _ m _ _ _ hfinds hbranch _ =>
      obtain ⟨⟨hsame, hmentions, hgo⟩, -⟩ := List.forall_mem_cons.mp hbases
      obtain ⟨other, hother, hafter⟩ := hfinds.paired hsame hmentions hpaired
      have halike := hgo m hfinds.resolution_eq _ other hafter
      rw [hbranch] at halike
      rw [throughBases_cons_run, hother]
      dsimp only
      generalize (went m.1 m.2).run other = r at halike ⊢
      obtain ⟨result, last'⟩ := r
      obtain rfl : Except.error _ = result := halike.result_eq
      exact ⟨⟨rfl, halike.expanded_eq⟩, halike.diagnostics_eq⟩
  | @branch _ _ _ m _ nodes _ _ hfinds hbranch hlast _ ih =>
      obtain ⟨⟨hsame, hmentions, hgo⟩, hrest⟩ := List.forall_mem_cons.mp hbases
      obtain ⟨other, hother, hafter⟩ := hfinds.paired hsame hmentions hpaired
      have halike := hgo m hfinds.resolution_eq _ other hafter
      have hcontinues := hon m.1 m.2 other
      rw [hbranch] at halike
      rw [throughBases_cons_run, hother]
      dsimp only
      generalize (went m.1 m.2).run other = r at halike hcontinues ⊢
      obtain ⟨result, last'⟩ := r
      obtain rfl : Except.ok nodes = result := halike.result_eq
      exact (ih hrest ⟨hlast, hafter.right.mono hcontinues, halike.expanded_eq,
        halike.diagnostics_eq⟩).mapped (nodes :: ·)

/-- **Walks that find the same bases visit the same declarations**, and report the same if the same
is to be mentioned of the bases. -/
theorem visit_lockstep (hagree : Agree S P fs Q gs)
    (hmentions : R → ∀ n, S n → ∀ base ∈ n.2.bases,
      mentions P fs n.1 base = mentions Q gs n.1 base)
    {n : Node} (hn : S n) (hpaired : Paired R P fs fuel Q gs larger path w v) :
    Alike R ((visit fs fuel path n.1 n.2).run w) ((visit gs larger path n.1 n.2).run v) := by
  induction fuel generalizing larger path n w v with
  | zero => exact absurd rfl hpaired.left.fuel_pos
  | succ fuel ih =>
      obtain ⟨larger, rfl⟩ := Nat.exists_eq_succ_of_ne_zero hpaired.right.fuel_pos
      rw [visit_run, visit_run, ← hpaired.expanded_eq]
      by_cases hpath : n.key ∈ path
      · rw [if_pos hpath, if_pos hpath]
        exact ⟨⟨rfl, hpaired.expanded_eq⟩,
          fun hR => congrArg (· ++ [cycleNote n]) (hpaired.diagnostics_eq hR)⟩
      · rw [if_neg hpath, if_neg hpath]
        by_cases hseen : n.key ∈ w.expanded
        · rw [if_pos hseen, if_pos hseen]
          exact hpaired.alike _
        · rw [if_neg hseen, if_neg hseen]
          have hnext : Paired R P fs fuel Q gs larger (n.key :: path) (Walking.marking w n.key)
              (Walking.marking v n.key) :=
            { left := hpaired.left.expanding (hagree.shown_left n hn) hpath
              right := hpaired.right.expanding (hagree.shown_right n hn) hpath
              expanded_eq := congrArg (· ++ [n.key]) hpaired.expanded_eq
              diagnostics_eq := hpaired.diagnostics_eq }
          refine (throughBases_lockstep (fun base hbase => ?_) (visit_continues larger _)
            (throughBases_basesRun (visit_continues fuel _) n.2.bases hnext.left)
            hnext).mapped fun found => n :: found.flatten
          exact ⟨hagree.resolution_eq n hn base hbase, fun hR => hmentions hR n hn base hbase,
            fun m hm w v hmpaired => ih (hagree.closed n hn base hbase m hm) hmpaired⟩

/-- At their start two walks are paired. -/
private theorem Paired.start (R : Prop) (fs gs : FileSystem) (P Q : Project) :
    Paired R P fs (declarationBound fs P + 1) Q gs (declarationBound gs Q + 1) [] ⟨P, [], []⟩
      ⟨Q, [], []⟩ where
  left := .start fs P
  right := .start gs Q
  expanded_eq := rfl
  diagnostics_eq _ := rfl

end Lockstep

/-! ## Components -/

variable {fs gs : FileSystem} {namespaces : List String} {selection : PropertySelection}
  {P Q : Project} {path : Path} {given : String}

/-- The properties that the props declaration of a file lists itself, sorted. -/
def directProperties (namespaces : List String) (selection : PropertySelection)
    (file : ParsedFile) : List Property :=
  match propsDeclaration? file with
  | some declaration =>
    sortProperties
      (firstOfEachName (members (settingFor namespaces selection file declaration) declaration))
  | none => []

private theorem properties_of_settled (hpath : path.Settled) :
    properties fs namespaces selection P path given =
      outcome given
        (match P.fileAt fs path with
        | .error e => (.error e, ⟨P, [], []⟩)
        | .ok file => walkOf fs namespaces selection P given file) := by
  have hproperties := properties_eq fs namespaces selection P path given
  rw [FileSystem.canonical_of_settled hpath] at hproperties
  exact hproperties

theorem outcome_project (given : String) (r : Except Fault (List Property) × Walk) :
    (outcome given r).2.1 = r.2.project := by
  rcases r with ⟨_ | _, _⟩ <;> rfl

/-- What extraction does to a project is to read more files. -/
theorem properties_keeps (hpath : path.Settled) :
    Extends fs P (properties fs namespaces selection P path given).2.1 := by
  rw [properties_of_settled hpath, outcome_project]
  cases hfile : P.fileAt fs path with
  | error e => exact .refl fs P
  | ok file =>
      dsimp only
      have hkeeps : Extends fs P (P.keeping file) := extends_keeping hfile
      cases hprops : propsDeclaration? file with
      | none =>
          rw [walkOf_of_none hprops]
          exact hkeeps
      | some declaration =>
          rw [walkOf_of_some hprops]
          exact hkeeps.trans
            (expand_continues _ _ [] file declaration ⟨P.keeping file, [], []⟩).keeps

/-- Without inherited properties only the file of the component counts. -/
theorem properties_of_not_inherited (hdirect : selection.inheritedProperties = false)
    (hpath : path.Settled) :
    (properties fs namespaces selection P path given).1 =
      match P.fileAt fs path with
      | .ok file => directProperties namespaces selection file
      | .error _ => [] := by
  rw [properties_of_settled hpath]
  cases P.fileAt fs path with
  | error e => rfl
  | ok file =>
      dsimp only
      cases hprops : propsDeclaration? file with
      | none => rw [walkOf_of_none hprops, outcome, directProperties, hprops]
      | some declaration =>
          have hsetting : (settingFor namespaces selection file declaration).selection =
            selection := rfl
          rw [walkOf_of_some hprops, directProperties, hprops, expand_run, hsetting, hdirect]
          rfl

theorem Agree.congr {S : Node → Prop} {P' Q' : Project} (hagree : Agree S P fs Q gs)
    (hleft : SameView fs P' P) (hright : SameView gs Q' Q) : Agree S P' fs Q' gs where
  shown_left n hn := (hagree.shown_left n hn).congr hleft
  shown_right n hn := (hagree.shown_right n hn).congr hright
  resolution_eq n hn base hbase := by
    rw [resolution_congr hleft, resolution_congr hright, hagree.resolution_eq n hn base hbase]
  closed n hn base hbase m hm :=
    hagree.closed n hn base hbase m (resolution_congr hleft n.1 base ▸ hm)

private theorem outcome_of_alike {R : Prop} {r s : Except Fault (List Property) × Walk}
    (halike : Alike R r s) :
    (outcome given r).1 = (outcome given s).1 ∧
      (R → (outcome given r).2.2 = (outcome given s).2.2) := by
  rcases r with ⟨result, w⟩
  rcases s with ⟨result', v⟩
  obtain rfl : result = result' := halike.result_eq
  cases result with
  | error e => exact ⟨rfl, fun hR => congrArg (· ++ _) (halike.diagnostics_eq hR)⟩
  | ok found => exact ⟨rfl, halike.diagnostics_eq⟩

/-- The walks through a file that both projects show end alike, if its bases, when they are looked
for, are found where they were. -/
private theorem walkOf_lockstep (R : Prop) {place : Path} {file : ParsedFile}
    (hleft : P.fileAt fs place = .ok file) (hright : Q.fileAt gs place = .ok file)
    (hbases : selection.inheritedProperties = true →
      ∀ declaration, propsDeclaration? file = some declaration →
        ∃ S, Agree S P fs Q gs ∧ S (file, declaration) ∧
          (R → ∀ n, S n → ∀ base ∈ n.2.bases,
            mentions P fs n.1 base = mentions Q gs n.1 base)) :
    Alike R (walkOf fs namespaces selection P given file)
      (walkOf gs namespaces selection Q given file) := by
  cases hprops : propsDeclaration? file with
  | none =>
      rw [walkOf_of_none hprops, walkOf_of_none hprops]
      exact ⟨⟨rfl, rfl⟩, fun _ => rfl⟩
  | some declaration =>
      rw [walkOf_of_some hprops, walkOf_of_some hprops]
      refine Alike.mapped ?_ sortProperties
      have hselection : (settingFor namespaces selection file declaration).selection =
        selection := rfl
      cases hinherited : selection.inheritedProperties with
      | false =>
          rw [expand_run, expand_run, hselection, hinherited]
          simp only [List.not_mem_nil, if_false, Bool.false_eq_true]
          exact ⟨⟨rfl, rfl⟩, fun _ => rfl⟩
      | true =>
          obtain ⟨S, hagree, hroot, hmentions⟩ := hbases hinherited declaration hprops
          have hviewLeft := (extends_keeping hleft).sameView
          have hviewRight := (extends_keeping hright).sameView
          rw [expand_eq_map_visit hinherited, expand_eq_map_visit hinherited, Walking.run_map,
            Walking.run_map]
          refine (visit_lockstep (hagree.congr hviewLeft hviewRight) (fun hR n hn base hbase => ?_)
            hroot (.start R fs gs _ _)).mapped _
          rw [mentions_congr hviewLeft, mentions_congr hviewRight, hmentions hR n hn base hbase]

/-- **What is extracted stays the same when the file of the component does and, if inherited
properties are selected, all bases are found where they were.** -/
theorem properties_lockstep (hpath : path.Settled)
    (hfile : (P.fileAt fs path).toOption = (Q.fileAt gs path).toOption)
    (hbases : selection.inheritedProperties = true →
      ∀ root, propsNode? fs P path = some root → ∃ S, Agree S P fs Q gs ∧ S root) :
    (properties fs namespaces selection P path given).1 =
      (properties gs namespaces selection Q path given).1 := by
  rw [properties_of_settled hpath, properties_of_settled hpath]
  cases hleft : P.fileAt fs path with
  | error e =>
      cases hright : Q.fileAt gs path with
      | error e' => rfl
      | ok file => simp [hleft, hright, Except.toOption] at hfile
  | ok file =>
      have hright : Q.fileAt gs path = .ok file := by
        rw [hleft] at hfile
        cases hright : Q.fileAt gs path <;> simp_all [Except.toOption]
      rw [hright]
      refine (outcome_of_alike (walkOf_lockstep False hleft hright ?_)).1
      intro hinherited declaration hprops
      obtain ⟨S, hagree, hroot⟩ := hbases hinherited _ (propsNode?_eq_some hpath hleft hprops)
      exact ⟨S, hagree, hroot, False.elim⟩

/-! ## Equal views -/

theorem agree_of_sameView (hview : SameView fs P Q) : Agree (Shown P fs) P fs Q fs where
  shown_left _ hn := hn
  shown_right _ hn := hn.congr hview.symm
  resolution_eq n _ base _ := resolution_congr hview n.1 base
  closed _ hn _ _ _ hm := hn.toShownFile.shown_of_resolution hm

/-- **Projects that show the same files give the same properties and the same reports.** -/
theorem properties_congr (hview : SameView fs P Q) (path : Path) :
    (properties fs namespaces selection P path given).1 =
        (properties fs namespaces selection Q path given).1 ∧
      (properties fs namespaces selection P path given).2.2 =
        (properties fs namespaces selection Q path given).2.2 := by
  have houtcome {r s : Except Fault (List Property) × Walk} (halike : Alike True r s) :
      (outcome given r).1 = (outcome given s).1 ∧ (outcome given r).2.2 = (outcome given s).2.2 :=
    ⟨(outcome_of_alike halike).1, (outcome_of_alike halike).2 trivial⟩
  rw [properties_eq, properties_eq]
  refine houtcome ?_
  cases hplace : fs.canonical path with
  | error e => exact ⟨⟨rfl, rfl⟩, fun _ => rfl⟩
  | ok place =>
      dsimp only
      rw [← hview.fileAt_eq]
      cases hfile : P.fileAt fs place with
      | error e => exact ⟨⟨rfl, rfl⟩, fun _ => rfl⟩
      | ok file =>
          have hother : Q.fileAt fs place = .ok file := hview.fileAt_eq place ▸ hfile
          refine walkOf_lockstep True hfile hother fun _ declaration hprops => ?_
          obtain rfl := path_of_fileAt hfile
          have hshown : ShownFile P fs file := ⟨FileSystem.settled_of_canonical hplace, hfile⟩
          exact ⟨Shown P fs, agree_of_sameView hview,
            hshown.shown (declaration?_of_propsDeclaration? hprops),
            fun _ n _ base _ => mentions_congr hview n.1 base⟩

/-- Projects that show the same files give the same facts, or the same fault. -/
theorem facts_congr (hview : SameView fs P Q) (path : Path) :
    (facts fs P path).map Prod.fst = (facts fs Q path).map Prod.fst := by
  simp only [facts, add_eq, bind, Except.bind, pure, Except.pure]
  cases fs.canonical path with
  | error e => rfl
  | ok place =>
      dsimp only
      rw [hview.fileAt_eq]
      cases Q.fileAt fs place <;> rfl

end ComponentDocs.Extraction
