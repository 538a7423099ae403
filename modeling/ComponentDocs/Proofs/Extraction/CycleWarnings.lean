import ComponentDocs.Proofs.Extraction.InheritanceOrder
import ComponentDocs.Proofs.Extraction.Lockstep

/-!
# Warnings about cycles

A walk warns when it meets a declaration that it is just expanding.  It does so if and only if the
declarations that can be reached build on each other in a cycle (`warnsOfCycle_iff`), although it
passes over those that it has finished and so never looks at most paths.

* **A warning means a cycle.**  Every declaration on the path of a walk leads to the one that is
  visited next.  If that one is on the path, it leads back to itself.
* **No warning means no cycle.**  Without a warning, no declaration is finished before everything it
  builds on: when its turn comes to an end, each of its bases has been finished earlier.  So a
  finished declaration is accessible along the edges of the graph (`Grounded`), and from an
  accessible one no cycle can be reached.
-/

namespace ComponentDocs

/-! ## Cycles of a graph -/

namespace Graph

variable {α : Type*} {next : α → List α} {a b : α}

/-- Whether following the edges from a node, at least one of them, leads back to it. -/
def OnCycle (next : α → List α) (a : α) : Prop := Relation.TransGen (fun a b => b ∈ next a) a a

/-- Whether every walk along the edges from a node comes to an end. -/
def Ends (next : α → List α) (a : α) : Prop := Acc (fun b a => b ∈ next a) a

theorem ends_of_forall (hnext : ∀ b ∈ next a, Ends next b) : Ends next a :=
  Acc.intro a hnext

/-- From a node where all walks end no cycle can be reached. -/
theorem Ends.not_onCycle (hends : Ends next a) (hreaches : Reaches next a b) :
    ¬ OnCycle next b := by
  have hb : Ends next b := by
    induction hreaches with
    | refl => exact hends
    | tail _ hstep ih => exact ih.inv hstep
  intro hcycle
  induction hb with
  | intro b _ ih =>
      -- the node after `b` on the cycle is on the cycle as well
      obtain ⟨c, hstep, hback⟩ := Relation.TransGen.head'_iff.mp hcycle
      exact ih c hstep (hreaches.tail hstep) (.tail' hback hstep)

end Graph

/-- The beginning of all warnings about cycles. -/
def cycleWarning : String := "Inheritance cycle through "

/-- Whether a diagnostic warns of a cycle. -/
def Diagnostic.warnsOfCycle (d : Diagnostic) : Bool :=
  d.severity = .warning && cycleWarning.toList.isPrefixOf d.message.toList

namespace Extraction

open Source Project ComponentDocs.Graph

variable {P : Project} {fs : FileSystem} {n : Node}

theorem warnsOfCycle_cycleNote (n : Node) : (cycleNote n).warnsOfCycle := by
  have hprefix : cycleWarning.toList <+: (cycleNote n).message.toList := by
    have hmessage : (cycleNote n).message.toList =
        cycleWarning.toList ++ (n.2.name.toList ++ "; not expanding it again".toList) := by
      rw [cycleNote, String.toList_append, String.toList_append, List.append_assoc]
      rfl
    exact ⟨_, hmessage.symm⟩
  have hseverity : (cycleNote n).severity = .warning := rfl
  simp [Diagnostic.warnsOfCycle, hseverity, hprefix]

/-! ## What is reported on the way -/

/-- The warnings of a walk. -/
def Walk.warnings (w : Walk) : List Diagnostic := w.diagnostics.filter (·.severity = .warning)

/-- Finding the declaration that a base stands for gives rise to no warning. -/
theorem warnings_resolveBase (file : ParsedFile) (base : BaseType) (w : Walk) :
    ((resolveBase fs file base).run w).2.warnings = w.warnings :=
  filter_diagnostics_resolveBase fs file base w (by decide)

/-! ## A walk and its warnings -/

/-- From each declaration that is marked and no longer on the path all walks come to an end. -/
def Grounded (P : Project) (fs : FileSystem) (path marked : List DeclarationKey) : Prop :=
  ∀ key ∈ marked, key ∉ path → Ends (basesOf P fs) key

/-- What a walk from the declarations of `todo` reports; `met` are the declarations that it meets
while they are being expanded. -/
structure Reports (P : Project) (fs : FileSystem) (path todo : List DeclarationKey) (w : Walk)
    (met : List Node) (after : Walk) : Prop where
  warnings_eq : after.warnings = w.warnings ++ met.map cycleNote
  onCycle : ∀ m ∈ met, OnCycle (basesOf P fs) m.key
  reached : ∀ m ∈ met, ∃ key ∈ todo, Reaches (basesOf P fs) key m.key
  grounded : met = [] → Grounded P fs path w.expanded → Grounded P fs path after.expanded
  ends : met = [] → Grounded P fs path w.expanded → ∀ key ∈ todo, Ends (basesOf P fs) key

variable {path todo more : List DeclarationKey} {fuel : ℕ} {w mid after : Walk}

namespace Reports

variable {met further : List Node}

theorem append (hfirst : Reports P fs path todo w met mid)
    (hsecond : Reports P fs path more mid further after) :
    Reports P fs path (todo ++ more) w (met ++ further) after where
  warnings_eq := by
    rw [hsecond.warnings_eq, hfirst.warnings_eq, List.map_append, List.append_assoc]
  onCycle m hm := (List.mem_append.mp hm).elim (hfirst.onCycle m) (hsecond.onCycle m)
  reached m hm := by
    rcases List.mem_append.mp hm with hm | hm
    · obtain ⟨key, hkey, hreach⟩ := hfirst.reached m hm
      exact ⟨key, List.mem_append_left _ hkey, hreach⟩
    · obtain ⟨key, hkey, hreach⟩ := hsecond.reached m hm
      exact ⟨key, List.mem_append_right _ hkey, hreach⟩
  grounded hnone hgrounded := by
    obtain ⟨hmet, hfurther⟩ := List.append_eq_nil_iff.mp hnone
    exact hsecond.grounded hfurther (hfirst.grounded hmet hgrounded)
  ends hnone hgrounded key hkey := by
    obtain ⟨hmet, hfurther⟩ := List.append_eq_nil_iff.mp hnone
    rcases List.mem_append.mp hkey with hkey | hkey
    · exact hfirst.ends hmet hgrounded key hkey
    · exact hsecond.ends hfurther (hfirst.grounded hmet hgrounded) key hkey

/-- Finding a base marks nothing and warns of nothing. -/
theorem of_finds {met : List Node} {file : ParsedFile} {base : BaseType}
    {target : Except Fault (Option Node)} (hfinds : Finds P fs fuel path file base w target mid)
    (hreports : Reports P fs path todo mid met after) : Reports P fs path todo w met after where
  warnings_eq := by
    have hquiet : ((resolveBase fs file base).run w).2.warnings = w.warnings :=
      warnings_resolveBase file base w
    rw [hfinds.run_eq] at hquiet
    rw [hreports.warnings_eq, hquiet]
  onCycle := hreports.onCycle
  reached := hreports.reached
  grounded hnone hgrounded := hreports.grounded hnone (hfinds.expanded_eq ▸ hgrounded)
  ends hnone hgrounded := hreports.ends hnone (hfinds.expanded_eq ▸ hgrounded)

/-- Going nowhere reports nothing. -/
theorem nil (path : List DeclarationKey) (w : Walk) : Reports P fs path [] w [] w where
  warnings_eq := by simp
  onCycle := by simp
  reached := by simp
  grounded _ hgrounded := hgrounded
  ends := by simp

/-- A declaration that is met while it is being expanded is on a cycle. -/
theorem of_mem_path (w : Walk) (hleads : ∀ key ∈ path,
    Relation.TransGen (fun a b => b ∈ basesOf P fs a) key n.key) (hpath : n.key ∈ path) :
    Reports P fs path [n.key] w [n] (Walking.noting w (cycleNote n)) where
  warnings_eq := by
    have hseverity : (cycleNote n).severity = .warning := rfl
    simp [Walking.noting, Walk.warnings, hseverity]
  onCycle m hm := List.mem_singleton.mp hm ▸ hleads n.key hpath
  reached m hm := ⟨n.key, List.mem_singleton.mpr rfl, List.mem_singleton.mp hm ▸ .refl⟩
  grounded hnone := absurd hnone (List.cons_ne_nil _ _)
  ends hnone := absurd hnone (List.cons_ne_nil _ _)

/-- A declaration that is finished is passed over. -/
theorem of_mem_expanded (hpath : n.key ∉ path) (hseen : n.key ∈ w.expanded) :
    Reports P fs path [n.key] w [] w where
  warnings_eq := by simp
  onCycle := by simp
  reached := by simp
  grounded _ hgrounded := hgrounded
  ends _ hgrounded key hkey := by
    rw [List.mem_singleton.mp hkey]
    exact hgrounded _ hseen hpath

/-- What the bases of a declaration report is what the declaration reports. -/
theorem of_bases (hbelow : Reports P fs (n.key :: path) (basesOf P fs n.key)
    (Walking.marking w n.key) met after) : Reports P fs path [n.key] w met after := by
  -- `n` is marked but on the path, so nothing is asked of it while its bases are visited
  have hbefore : Grounded P fs path w.expanded →
      Grounded P fs (n.key :: path) (Walking.marking w n.key).expanded := by
    intro hgrounded key hkey hnew
    rw [List.mem_cons, not_or] at hnew
    rcases List.mem_append.mp hkey with hkey | hkey
    · exact hgrounded key hkey hnew.2
    · exact absurd (List.mem_singleton.mp hkey) hnew.1
  have hends : met = [] → Grounded P fs path w.expanded → Ends (basesOf P fs) n.key :=
    fun hnone hgrounded => ends_of_forall (hbelow.ends hnone (hbefore hgrounded))
  refine ⟨hbelow.warnings_eq, hbelow.onCycle, fun m hm => ?_, fun hnone hgrounded => ?_,
    fun hnone hgrounded key hkey => List.mem_singleton.mp hkey ▸ hends hnone hgrounded⟩
  · obtain ⟨key, hkey, hreach⟩ := hbelow.reached m hm
    exact ⟨n.key, List.mem_singleton.mpr rfl, .head hkey hreach⟩
  · intro key hkey hnew
    by_cases hsame : key = n.key
    · rw [hsame]
      exact hends hnone hgrounded
    · refine hbelow.grounded hnone (hbefore hgrounded) key hkey fun hmem => ?_
      exact (List.mem_cons.mp hmem).elim hsame hnew

end Reports

/-- Going through the bases of a file reports what going on from each of them does. -/
private theorem throughBases_reports {file : ParsedFile}
    {go : ParsedFile → Declaration → Walking (List Node)} {bases : List BaseType}
    (hgo : ∀ base ∈ bases, ∀ m : Node, resolution P fs file base = .ok (some m) →
      ∀ w, Ready P fs fuel path w → ∀ nodes after, (go m.1 m.2).run w = (.ok nodes, after) →
        ∃ met, Reports P fs path [m.key] w met after)
    {ending : Except Fault (List (List Node)) × Walk}
    (hrun : BasesRun P fs fuel path file go bases w ending) {branches : List (List Node)}
    (hending : ending = (.ok branches, after)) :
    ∃ met, Reports P fs path (bases.filterMap (baseKey? P fs file)) w met after := by
  induction hrun generalizing branches with
  | nil w =>
      cases hending
      exact ⟨[], .nil path _⟩
  | fault => cases hending
  | nothing hfinds _ ih =>
      -- a base that stands for nothing is no edge of the graph
      obtain ⟨others, rfl, rfl⟩ := Walking.mapped_eq_ok_iff.mp hending
      obtain ⟨met, hreports⟩ := ih (List.forall_mem_cons.mp hgo).2 rfl
      rw [List.filterMap_cons_none hfinds.baseKey?_eq]
      exact ⟨met, hreports.of_finds hfinds⟩
  | broken => cases hending
  | branch hfinds hnodes _ _ ih =>
      obtain ⟨others, rfl, rfl⟩ := Walking.mapped_eq_ok_iff.mp hending
      obtain ⟨hbase, hrest⟩ := List.forall_mem_cons.mp hgo
      obtain ⟨met, hbranch⟩ := hbase _ hfinds.resolution_eq _ hfinds.ready _ _ hnodes
      obtain ⟨further, hreports⟩ := ih hrest rfl
      rw [List.filterMap_cons_some hfinds.baseKey?_eq]
      exact ⟨met ++ further, (hbranch.append hreports).of_finds hfinds⟩

/-- **What a walk warns of is on a cycle, and if it warns of nothing, there is none.** -/
theorem visit_reports (fuel : ℕ) (hn : Shown P fs n)
    (hleads : ∀ key ∈ path, Relation.TransGen (fun a b => b ∈ basesOf P fs a) key n.key)
    (hready : Ready P fs fuel path w) {nodes : List Node}
    (hrun : (visit fs fuel path n.1 n.2).run w = (.ok nodes, after)) :
    ∃ met, Reports P fs path [n.key] w met after := by
  induction fuel generalizing path n w nodes after with
  | zero => exact absurd rfl hready.fuel_pos
  | succ fuel ih =>
      rw [visit_run] at hrun
      by_cases hpath : n.key ∈ path
      · rw [if_pos hpath] at hrun
        cases hrun
        exact ⟨[n], .of_mem_path w hleads hpath⟩
      · rw [if_neg hpath] at hrun
        by_cases hseen : n.key ∈ w.expanded
        · rw [if_pos hseen] at hrun
          cases hrun
          exact ⟨[], .of_mem_expanded hpath hseen⟩
        · rw [if_neg hseen] at hrun
          dsimp only at hrun
          generalize hbelow : (throughBases fs n.1 (visit fs fuel (n.key :: path)) n.2.bases).run
            (Walking.marking w n.key) = r at hrun
          obtain ⟨_ | branches, last⟩ := r
          · cases hrun
          · cases hrun
            have hreports := throughBases_reports (fun base hbase m hm v hv nodes after hrun =>
              ih (hn.toShownFile.shown_of_resolution hm) ?_ hv hrun)
              (throughBases_basesRun (visit_continues fuel (n.key :: path)) n.2.bases
                (hready.expanding hn hpath)) hbelow
            · rw [← hn.basesOf_key] at hreports
              obtain ⟨met, hreports⟩ := hreports
              exact ⟨met, hreports.of_bases⟩
            · -- every declaration on the path leads to `n`, and `n` builds on `m`
              have hstep : m.key ∈ basesOf P fs n.key := by
                rw [hn.basesOf_key]
                exact List.mem_filterMap.mpr ⟨base, hbase, baseKey?_of_resolution hm⟩
              intro key hkey
              rcases List.mem_cons.mp hkey with rfl | hkey
              · exact .single hstep
              · exact (hleads key hkey).tail hstep

/-- Starting without any diagnostics, a walk warns exactly of the declarations that it meets. -/
theorem Reports.warns_iff {Q : Project} {marked : List DeclarationKey} {met : List Node}
    (hreports : Reports P fs path todo ⟨Q, marked, []⟩ met after) (d : Diagnostic) :
    (d ∈ after.diagnostics ∧ d.warnsOfCycle = true) ↔ ∃ m ∈ met, cycleNote m = d := by
  have hwarnings : after.warnings = met.map cycleNote := hreports.warnings_eq
  constructor
  · rintro ⟨hd, hwarns⟩
    have hseverity : d.severity = .warning :=
      of_decide_eq_true (Bool.and_eq_true_iff.mp hwarns).1
    have hwarning : d ∈ after.warnings := List.mem_filter.mpr ⟨hd, decide_eq_true hseverity⟩
    rw [hwarnings] at hwarning
    exact List.mem_map.mp hwarning
  · rintro ⟨m, hm, rfl⟩
    have hwarning : cycleNote m ∈ after.warnings := hwarnings ▸ List.mem_map_of_mem hm
    exact ⟨(List.mem_filter.mp hwarning).1, warnsOfCycle_cycleNote m⟩

/-! ## What extraction warns of -/

variable {namespaces : List String} {selection : PropertySelection} {file : Path} {given : String}

/-- Without a props declaration, extraction that reports no error only says that there is none. -/
private theorem notes_of_none (hprops : propsNode? fs P file = none)
    (hnoError : ∀ d ∈ (properties fs namespaces selection P file given).2.2,
      d.severity ≠ .error) :
    (properties fs namespaces selection P file given).2.2 =
      [⟨given, .warning, "No Props declaration found"⟩] := by
  rw [properties_eq] at hnoError ⊢
  rw [propsNode?, add_eq] at hprops
  cases hplace : fs.canonical file with
  | error e => simp [hplace, outcome] at hnoError
  | ok place =>
      cases hfile : P.fileAt fs place with
      | error e => simp [hplace, hfile, outcome] at hnoError
      | ok parsed =>
          simp only [hplace, hfile] at hprops ⊢
          rw [walkOf_of_none (Option.map_eq_none_iff.mp hprops), outcome]

/-- **Inherited extraction that reports no error warns of a cycle if and only if one can be reached
from the props declaration.**  Each of these warnings is about a declaration on a cycle. -/
theorem warnsOfCycle_iff (hinherited : selection.inheritedProperties = true)
    (hnoError : ∀ d ∈ (properties fs namespaces selection P file given).2.2,
      d.severity ≠ .error) :
    let notes := (properties fs namespaces selection P file given).2.2
    ((∃ d ∈ notes, d.warnsOfCycle = true) ↔
      ∃ root, propsNode? fs P file = some root ∧
        ∃ key, Reaches (basesOf P fs) root.key key ∧ OnCycle (basesOf P fs) key) ∧
    ∀ d ∈ notes, d.warnsOfCycle = true →
      ∃ n : Node, d = cycleNote n ∧ OnCycle (basesOf P fs) n.key := by
  intro notes
  cases hprops : propsNode? fs P file with
  | none =>
      have hquiet : ∀ d ∈ notes, d.warnsOfCycle ≠ true := by
        have hnotes : notes = _ := notes_of_none hprops hnoError
        rw [hnotes]
        intro d hd
        have hother : ¬ cycleWarning.toList <+: "No Props declaration found".toList := by decide
        rw [List.mem_singleton.mp hd]
        simpa [Diagnostic.warnsOfCycle] using hother
      refine ⟨⟨fun ⟨d, hd, hwarns⟩ => absurd hwarns (hquiet d hd), ?_⟩,
        fun d hd hwarns => absurd hwarns (hquiet d hd)⟩
      rintro ⟨root, hroot, -⟩
      cases hroot
  | some root =>
      obtain ⟨hroot, hkept, nodes, after, hrun, hproperties⟩ :=
        exists_visit hinherited hprops hnoError
      obtain ⟨met, hreports⟩ := visit_reports _ hroot (by simp) (Ready.start fs _) hrun
      have hnotes : notes = after.diagnostics := congrArg (·.2.2) hproperties
      rw [hnotes]
      have hbases : basesOf (P.keeping root.1) fs = basesOf P fs := basesOf_congr hkept
      refine ⟨⟨?_, ?_⟩, fun d hd hwarns => ?_⟩
      · rintro ⟨d, hwarns⟩
        obtain ⟨m, hm, -⟩ := (hreports.warns_iff d).mp hwarns
        obtain ⟨key, hkey, hreach⟩ := hreports.reached m hm
        rw [List.mem_singleton.mp hkey, hbases] at hreach
        exact ⟨root, rfl, m.key, hreach, hbases ▸ hreports.onCycle m hm⟩
      · rintro ⟨_, ⟨⟩, key, hreach, hcycle⟩
        cases met with
        | nil =>
            -- nothing is marked at the start
            have hends : Ends (basesOf (P.keeping root.1) fs) root.key :=
              hreports.ends rfl (by simp [Grounded]) _ (List.mem_singleton.mpr rfl)
            exact absurd hcycle ((hbases ▸ hends).not_onCycle hreach)
        | cons m rest =>
            exact ⟨cycleNote m, (hreports.warns_iff _).mpr ⟨m, List.mem_cons_self, rfl⟩⟩
      · obtain ⟨m, hm, hnote⟩ := (hreports.warns_iff d).mp ⟨hd, hwarns⟩
        exact ⟨m, hnote.symm, hbases ▸ hreports.onCycle m hm⟩

/-- Two declarations that build on each other are reported, and rightly so. -/
theorem mutual_warnsOfCycle :
    let notes := (properties mutualFiles ["React."] { inheritedProperties := true } mutualProject
      (Path.ofString "/T.ts") "T.ts").2.2
    (∀ d ∈ notes, d.severity ≠ .error) ∧ (∃ d ∈ notes, d.warnsOfCycle = true) ∧
      ∃ root, propsNode? mutualFiles mutualProject (Path.ofString "/T.ts") = some root ∧
        ∃ key, Reaches (basesOf mutualProject mutualFiles) root.key key ∧
          OnCycle (basesOf mutualProject mutualFiles) key := by
  intro notes
  have hfacts : (∀ d ∈ notes, d.severity ≠ .error) ∧ ∃ d ∈ notes, d.warnsOfCycle = true := by
    decide +kernel
  exact ⟨hfacts.1, hfacts.2, (warnsOfCycle_iff rfl hfacts.1).1.mp hfacts.2⟩

end Extraction

end ComponentDocs
