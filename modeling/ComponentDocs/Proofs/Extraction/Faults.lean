import ComponentDocs.Proofs.Extraction.InheritanceOrder
import ComponentDocs.Proofs.Extraction.Lockstep
import ComponentDocs.Proofs.Extraction.ModuleSearch

/-!
# What a fault costs

A base that stands for nothing is passed over, but one whose finding fails ends the whole walk, and
with it goes everything that the walk has listed.  A walk ends in this way if and only if a
declaration that can be reached has such a base (`exists_visit_error_iff`).

So selecting inherited properties never loses those that the component declares itself, unless the
search for the module of some base is blocked; in that case it loses all of them
(`direct_subset_inherited`).
-/

namespace ComponentDocs.Extraction

open Source Project ComponentDocs.Graph

variable {P : Project} {fs : FileSystem} {n : Node} {fuel : ℕ} {path : List DeclarationKey}
  {w : Walk}

/-! ## Where a walk fails -/

/-- Whether finding one of the bases of a declaration fails. -/
def Fails (P : Project) (fs : FileSystem) (n : Node) : Prop :=
  ∃ base ∈ n.2.bases, ∃ e, resolution P fs n.1 base = .error e

/-- Whether a declaration that fails can be reached from one of the given ones. -/
def FailsBelow (P : Project) (fs : FileSystem) (starts : List DeclarationKey) : Prop :=
  ∃ m, Shown P fs m ∧ (∃ key ∈ starts, Reaches (basesOf P fs) key m.key) ∧ Fails P fs m

theorem FailsBelow.mono {starts more : List DeclarationKey} (hfails : FailsBelow P fs starts)
    (hsubset : starts ⊆ more) : FailsBelow P fs more := by
  obtain ⟨m, hm, ⟨key, hkey, hreach⟩, hfailing⟩ := hfails
  exact ⟨m, hm, ⟨key, hsubset hkey, hreach⟩, hfailing⟩

/-- Going through the bases of a file ends with a fault only if finding one of them fails or if
going on from one does; otherwise all of them have been found. -/
private theorem throughBases_faults {file : ParsedFile} (hfile : ShownFile P fs file)
    {go : ParsedFile → Declaration → Walking (List Node)}
    (hgo : ∀ m : Node, Shown P fs m → ∀ w, Ready P fs fuel path w →
      match ((go m.1 m.2).run w).1 with
      | .error _ => FailsBelow P fs [m.key]
      | .ok nodes => ∀ k ∈ nodes, ¬ Fails P fs k)
    {bases : List BaseType} {ending : Except Fault (List (List Node)) × Walk}
    (hrun : BasesRun P fs fuel path file go bases w ending) :
    match ending.1 with
    | .error _ => (∃ base ∈ bases, ∃ e, resolution P fs file base = .error e) ∨
        FailsBelow P fs (bases.filterMap (baseKey? P fs file))
    | .ok branches => (∀ base ∈ bases, ∀ e, resolution P fs file base ≠ .error e) ∧
        ∀ k ∈ branches.flatten, ¬ Fails P fs k := by
  -- what goes wrong later in the list goes wrong in the whole list
  have hlater {base : BaseType} {rest : List BaseType}
      (hfails : ∃ b ∈ rest, ∃ e, resolution P fs file b = .error e) :
      ∃ b ∈ base :: rest, ∃ e, resolution P fs file b = .error e := by
    obtain ⟨b, hb, hfails⟩ := hfails
    exact ⟨b, List.mem_cons_of_mem _ hb, hfails⟩
  induction hrun with
  | nil => simp
  | fault hfinds => exact .inl ⟨_, List.mem_cons_self, _, hfinds.resolution_eq⟩
  | @nothing _ _ _ _ r hfinds _ ih =>
      rw [List.filterMap_cons_none hfinds.baseKey?_eq]
      obtain ⟨_ | others, last⟩ := r
      · exact ih.imp_left hlater
      · refine ⟨List.forall_mem_cons.mpr ⟨?_, ih.1⟩, ih.2⟩
        simp [hfinds.resolution_eq]
  | @broken _ _ _ m found _ _ hfinds hbranch _ =>
      have hfails := hgo m (hfile.shown_of_resolution hfinds.resolution_eq) found hfinds.ready
      rw [hbranch] at hfails
      rw [List.filterMap_cons_some hfinds.baseKey?_eq]
      exact .inr (hfails.mono (by simp))
  | @branch _ _ _ m found _ _ r hfinds hbranch _ _ ih =>
      have hquiet := hgo m (hfile.shown_of_resolution hfinds.resolution_eq) found hfinds.ready
      rw [hbranch] at hquiet
      rw [List.filterMap_cons_some hfinds.baseKey?_eq]
      obtain ⟨_ | others, final⟩ := r
      · exact ih.imp hlater fun hfails => hfails.mono (by simp)
      · refine ⟨List.forall_mem_cons.mpr ⟨?_, ih.1⟩, fun k hk => ?_⟩
        · simp [hfinds.resolution_eq]
        · rw [List.flatten_cons, List.mem_append] at hk
          exact hk.elim (hquiet k) (ih.2 k)

/-- A walk ends with a fault only if a declaration fails that can be reached; otherwise none of
those that it visits fails. -/
theorem visit_faults (hn : Shown P fs n) (hready : Ready P fs fuel path w) :
    match ((visit fs fuel path n.1 n.2).run w).1 with
    | .error _ => FailsBelow P fs [n.key]
    | .ok nodes => ∀ k ∈ nodes, ¬ Fails P fs k := by
  induction fuel generalizing path n w with
  | zero => exact absurd rfl hready.fuel_pos
  | succ fuel ih =>
      rw [visit_run]
      by_cases hpath : n.key ∈ path
      · rw [if_pos hpath]
        simp
      · rw [if_neg hpath]
        by_cases hseen : n.key ∈ w.expanded
        · rw [if_pos hseen]
          simp
        · rw [if_neg hseen]
          have hbelow := throughBases_faults hn.toShownFile (fun m hm v hv => ih hm hv)
            (throughBases_basesRun (visit_continues fuel (n.key :: path)) n.2.bases
              (hready.expanding hn hpath))
          dsimp only
          generalize (throughBases fs n.1 (visit fs fuel (n.key :: path)) n.2.bases).run
            (Walking.marking w n.key) = r at hbelow ⊢
          obtain ⟨_ | branches, last⟩ := r
          · rcases hbelow with hfails | ⟨m, hm, ⟨key, hkey, hreach⟩, hfails⟩
            · exact ⟨n, hn, ⟨n.key, by simp, .refl⟩, hfails⟩
            · rw [← hn.basesOf_key] at hkey
              exact ⟨m, hm, ⟨n.key, by simp, .head hkey hreach⟩, hfails⟩
          · refine List.forall_mem_cons.mpr ⟨fun hfails => ?_, hbelow.2⟩
            obtain ⟨base, hbase, e, he⟩ := hfails
            exact hbelow.1 base hbase e he

/-- **A walk fails if and only if a declaration fails that can be reached.** -/
theorem exists_visit_error_iff (hn : Shown P fs n) :
    (∃ e, ((visit fs (declarationBound fs P + 1) [] n.1 n.2).run ⟨P, [], []⟩).1 = .error e) ↔
      FailsBelow P fs [n.key] := by
  have hready := Ready.start fs P
  have hfaults := visit_faults hn hready
  cases hrun : (visit fs (declarationBound fs P + 1) [] n.1 n.2).run ⟨P, [], []⟩ with
  | mk result after =>
      rw [hrun] at hfaults
      cases result with
      | error e => exact ⟨fun _ => hfaults, fun _ => ⟨e, rfl⟩⟩
      | ok nodes =>
          refine ⟨fun ⟨e, he⟩ => (by cases he), ?_⟩
          rintro ⟨m, hm, ⟨key, hkey, hreach⟩, hfails⟩
          -- everything that can be reached has been visited
          have hwalk := visit_explores _ _ hn _ hready hrun
          rw [List.mem_singleton.mp hkey] at hreach
          obtain ⟨k, hk, hsame⟩ :=
            List.mem_map.mp ((hwalk.order.mem_iff_reaches m.key).mpr hreach)
          exact absurd ((hwalk.shown k hk).eq_of_key_eq hm hsame ▸ hfails) (hfaults k hk)

/-! ## What is reported -/

/-- The errors that a walk reports. -/
def Walk.errors (w : Walk) : List Diagnostic := w.diagnostics.filter (·.severity = .error)

/-- No step of a walk reports an error; only its end may do so. -/
theorem stepwise_errors (fs : FileSystem) : Stepwise fs fun w after => after.errors = w.errors where
  refl _ := rfl
  trans hfirst hsecond := hsecond.trans hfirst
  noting w n := by simp [Walk.errors, Walking.noting, cycleNote]
  marking _ _ := rfl
  resolving file base w := filter_diagnostics_resolveBase fs file base w (by decide)

/-! ## What is lost -/

variable {namespaces : List String} {selection : PropertySelection} {place : Path} {given : String}

/-- A walk that does not fail lists what the props declaration lists itself, and more. -/
private theorem direct_subset_listed {setting : Setting} {after : Walk} {nodes : List Node}
    (hrun : (visit fs (fuel + 1) [] n.1 n.2).run ⟨P, [], []⟩ = (.ok nodes, after)) :
    listed setting [n] ⊆ listed setting nodes := by
  rw [visit_run, if_neg List.not_mem_nil, if_neg List.not_mem_nil] at hrun
  dsimp only at hrun
  generalize (throughBases fs n.1 (visit fs fuel [n.key]) n.2.bases).run _ = r at hrun
  obtain ⟨_ | branches, last⟩ := r
  · cases hrun
  · cases hrun
    intro p hp
    rw [listed, List.flatMap_singleton, mem_firstOfEachName] at hp
    rw [listed, mem_firstOfEachName, List.flatMap_cons, List.find?_append, hp, Option.some_or]

/-- **Selecting inherited properties loses none of those that the component lists itself, unless the
search for the module of a base is blocked, and then it loses all of them.**  The base may be one of
the props declaration or of any declaration that it builds on; the aliases start at a path from the
root in every project that is opened (`Project.isAbsolute_base_of_start`). -/
theorem direct_subset_inherited (hbase : P.base.isAbsolute)
    (hnoError : ∀ d ∈ (properties fs namespaces { selection with inheritedProperties := false } P
      place given).2.2, d.severity ≠ .error) :
    let extracted := fun inherited : Bool =>
      properties fs namespaces { selection with inheritedProperties := inherited } P place given
    let blocked := ∃ root m : Node, propsNode? fs P place = some root ∧ Shown P fs m ∧
      Reaches (basesOf P fs) root.key m.key ∧ ∃ base ∈ m.2.bases, BlockedBase P fs m.1 base
    (¬ blocked → (extracted false).1 ⊆ (extracted true).1 ∧
      ∀ d ∈ (extracted true).2.2, d.severity ≠ .error) ∧
    (blocked → (extracted true).1 = [] ∧ ∃ d ∈ (extracted true).2.2, d.severity = .error) := by
  intro extracted blocked
  cases hprops : propsNode? fs P place with
  | none =>
      have hsame : extracted true = extracted false :=
        (properties_of_propsNode?_eq_none hprops).2 _
      refine ⟨fun _ => ⟨by simp [hsame], hsame ▸ hnoError⟩, ?_⟩
      rintro ⟨root, _, hroot, _⟩
      rw [hprops] at hroot
      cases hroot
  | some root =>
      obtain ⟨_, _, hfile, _, hroot⟩ := shown_of_propsNode? hprops
      have hkept : SameView fs (P.keeping root.1) P := (extends_keeping hfile).sameView
      -- a blocked base is one whose finding fails, also in the project that keeps the file
      have hblocked : blocked ↔ FailsBelow (P.keeping root.1) fs [root.key] := by
        simp only [blocked, FailsBelow, hprops, Option.some.injEq, List.mem_singleton,
          exists_eq_left, exists_and_left, exists_eq_left', Fails, resolution_congr hkept,
          basesOf_congr hkept]
        constructor
        · rintro ⟨m, hm, hreach, base, hmem, hbaseBlocked⟩
          exact ⟨m, hm.congr hkept, hreach, base, hmem,
            (exists_resolution_error_iff hbase hm.settled.isAbsolute).mpr hbaseBlocked⟩
        · rintro ⟨m, hm, hreach, base, hmem, hfails⟩
          exact ⟨m, hm.congr hkept.symm, hreach, base, hmem,
            (exists_resolution_error_iff hbase hm.settled.isAbsolute).mp hfails⟩
      have hfaults := exists_visit_error_iff (hroot.congr hkept)
      have herrors := (stepwise_errors fs).visit
        (declarationBound fs (P.keeping root.1) + 1) [] root.1 root.2 ⟨P.keeping root.1, [], []⟩
      have hdirect : (extracted false).1 = _ := congrArg Prod.fst (properties_direct rfl hprops)
      have hfull : extracted true = _ := properties_of_propsNode? hprops
      rw [hblocked, ← hfaults, hdirect, hfull, expand_eq_map_visit rfl, Walking.run_map]
      cases hrun : (visit fs (declarationBound fs (P.keeping root.1) + 1) [] root.1 root.2).run
          ⟨P.keeping root.1, [], []⟩ with
      | mk result after =>
          rw [hrun] at herrors
          cases result with
          | error e =>
              exact ⟨fun hnone => absurd ⟨e, rfl⟩ hnone, fun _ => ⟨rfl, _,
                List.mem_append_right _ (List.mem_singleton.mpr rfl), rfl⟩⟩
          | ok nodes =>
              refine ⟨fun _ => ⟨fun p hp => ?_, fun d hd herror => ?_⟩, fun ⟨e, he⟩ => (by cases he)⟩
              · rw [mem_sortProperties] at hp
                exact mem_sortProperties.mpr (direct_subset_listed hrun hp)
              · have hmem : d ∈ after.errors := List.mem_filter.mpr ⟨hd, by simpa using herror⟩
                rw [herrors] at hmem
                cases hmem

/-- A component with a base of its own name and with bases in a namespace, declared nowhere and
imported from a missing file. -/
def scatteredFiles : FileSystem :=
  FileSystem.write ⟨.directory 0 [], [], []⟩ (Path.ofString "/T.ts") (Text.bytesOf
    ("import\x7bB\x7dfrom\"./B\"\ninterface TProps extends R.X,A,B,TProps\x7ba:A\x7d")) 0

theorem scattered_direct_subset_inherited :
    let extracted := fun inherited : Bool => properties scatteredFiles ["React."]
      { inheritedProperties := inherited } mutualProject (Path.ofString "/T.ts") "T.ts"
    mutualProject.base.isAbsolute ∧ (∀ d ∈ (extracted false).2.2, d.severity ≠ .error) ∧
      (extracted false).1.map Property.name = ["a"] ∧
      (extracted false).1 ⊆ (extracted true).1 ∧
      ∀ d ∈ (extracted true).2.2, d.severity ≠ .error := by
  have hfacts :
      let extracted := fun inherited : Bool => properties scatteredFiles ["React."]
        { inheritedProperties := inherited } mutualProject (Path.ofString "/T.ts") "T.ts"
      (∀ d ∈ (extracted false).2.2, d.severity ≠ .error) ∧
        (extracted false).1.map Property.name = ["a"] ∧
        ∀ d ∈ (extracted true).2.2, d.severity ≠ .error := by
    decide +kernel
  have hlost := @direct_subset_inherited mutualProject scatteredFiles ["React."] {}
    (Path.ofString "/T.ts") "T.ts" rfl
  dsimp only at hfacts hlost ⊢
  obtain ⟨hnoError, hnames, hquiet⟩ := hfacts
  obtain ⟨hkept, hloses⟩ := hlost hnoError
  refine ⟨rfl, hnoError, hnames, hkept fun hblocked => ?_⟩
  obtain ⟨d, hd, herror⟩ := (hloses hblocked).2
  exact hquiet d hd herror

/-- A component with a base that is imported from the directory above all others, which has no name
that an ending could be added to. -/
def rootedFiles : FileSystem :=
  FileSystem.write ⟨.directory 0 [], [], []⟩ (Path.ofString "/T.ts") (Text.bytesOf
    ("import\x7bB\x7dfrom\".\"\ninterface TProps extends B\x7ba:A\x7d")) 0

/-- A base that cannot be looked for costs a component its own properties. -/
theorem rooted_loses_direct :
    let extracted := fun inherited : Bool => properties rootedFiles ["React."]
      { inheritedProperties := inherited } mutualProject (Path.ofString "/T.ts") "T.ts"
    (∀ d ∈ (extracted false).2.2, d.severity ≠ .error) ∧
      (extracted false).1.map Property.name = ["a"] ∧ (extracted true).1 = [] := by
  decide +kernel

end ComponentDocs.Extraction
