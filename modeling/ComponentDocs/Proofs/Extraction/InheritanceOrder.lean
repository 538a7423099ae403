import ComponentDocs.Proofs.Extraction.ComponentWalk

/-!
# What inherited extraction lists

With inherited properties selected, the properties of a component are those of all declarations
that can be reached from its props declaration: in depth-first preorder, of each name the first,
and sorted at the end.  The walk reports a fault as an error, so a walk whose diagnostics hold no
error went through to the end.
-/

namespace ComponentDocs.Extraction

open Source Project ComponentDocs.Graph

variable {fs : FileSystem} {namespaces : List String} {selection : PropertySelection}
  {P : Project} {path : Path} {given : String}

/-- The properties that the declaration with a key lists itself. -/
def ownProperties (P : Project) (fs : FileSystem) (setting : Setting) (key : DeclarationKey) :
    List Property :=
  match node? P fs key with
  | some n => members setting n.2
  | none => []

/-! ## The walk to its end -/

theorem listed_eq_of_shown {setting : Setting} {nodes : List Node}
    (hnodes : ∀ n ∈ nodes, Shown P fs n) :
    listed setting nodes =
      firstOfEachName ((nodes.map Node.key).flatMap (ownProperties P fs setting)) := by
  rw [listed, List.flatMap_map]
  congr 1
  refine List.flatMap_congr fun n hn => ?_
  rw [ownProperties, (hnodes n hn).node?_key]

/-- Extraction that reports no error has walked to the end from the props declaration. -/
theorem exists_visit {n : Node} (hinherited : selection.inheritedProperties = true)
    (hprops : propsNode? fs P path = some n)
    (hnoError : ∀ d ∈ (properties fs namespaces selection P path given).2.2,
      d.severity ≠ .error) :
    Shown (P.keeping n.1) fs n ∧ SameView fs (P.keeping n.1) P ∧
      ∃ nodes after, (visit fs (declarationBound fs (P.keeping n.1) + 1) [] n.1 n.2).run
          ⟨P.keeping n.1, [], []⟩ = (.ok nodes, after) ∧
        properties fs namespaces selection P path given =
          (sortProperties (listed (settingFor namespaces selection n.1 n.2) nodes),
            after.project, after.diagnostics) := by
  obtain ⟨place, -, hfile, -, hshown⟩ := shown_of_propsNode? hprops
  have hkept : SameView fs (P.keeping n.1) P := (extends_keeping hfile).sameView
  refine ⟨hshown.congr hkept, hkept, ?_⟩
  rw [properties_of_propsNode? hprops, expand_eq_map_visit hinherited, Walking.run_map]
    at hnoError ⊢
  cases hrun : (visit fs (declarationBound fs (P.keeping n.1) + 1) [] n.1 n.2).run
      ⟨P.keeping n.1, [], []⟩ with
  | mk result after =>
      cases result with
      | error e =>
          rw [hrun] at hnoError
          refine absurd rfl (hnoError _ (List.mem_append_right _ (List.mem_singleton.mpr rfl)))
      | ok nodes => exact ⟨nodes, after, rfl, rfl⟩

/-- A walk that reports no error lists the properties of the declarations it went through. -/
private theorem exists_order {n : Node} (hinherited : selection.inheritedProperties = true)
    (hprops : propsNode? fs P path = some n)
    (hnoError : ∀ d ∈ (properties fs namespaces selection P path given).2.2,
      d.severity ≠ .error) :
    ∃ order, DepthFirst (basesOf P fs) [] [n.key] order ∧
      (properties fs namespaces selection P path given).1 =
        sortProperties (firstOfEachName
          (order.flatMap (ownProperties P fs (settingFor namespaces selection n.1 n.2)))) := by
  obtain ⟨hroot, hkept, nodes, after, hrun, hproperties⟩ :=
    exists_visit hinherited hprops hnoError
  have hwalk := visit_explores _ _ hroot _ (Ready.start fs _) hrun
  refine ⟨nodes.map Node.key, basesOf_congr hkept ▸ hwalk.order, ?_⟩
  rw [hproperties, ← listed_eq_of_shown fun m hm => (hwalk.shown m hm).congr hkept.symm]

/-! ## What is listed -/

@[simp] theorem mem_sortProperties {p : Property} {ps : List Property} :
    p ∈ sortProperties ps ↔ p ∈ ps :=
  List.mem_mergeSort

theorem sortProperties_perm (ps : List Property) : (sortProperties ps).Perm ps :=
  List.mergeSort_perm ps Property.precedes

/-- **Inherited extraction lists the properties of all declarations that can be reached, in
depth-first preorder and of each name the first, and sorts them at the end.**  So the names are
those of all these declarations, none is listed twice, and what a declaration lists itself comes
before what is first reached after it. -/
theorem properties_eq_sort_depthFirst {root : Node}
    (hinherited : selection.inheritedProperties = true)
    (hprops : propsNode? fs P path = some root)
    (hnoError : ∀ d ∈ (properties fs namespaces selection P path given).2.2,
      d.severity ≠ .error) :
    let own := ownProperties P fs (settingFor namespaces selection root.1 root.2)
    let listed := (properties fs namespaces selection P path given).1
    ∃ order : List DeclarationKey,
      DepthFirst (basesOf P fs) [] [root.key] order ∧
      (∀ key, key ∈ order ↔ Reaches (basesOf P fs) root.key key) ∧ order.Nodup ∧
      listed = sortProperties (firstOfEachName (order.flatMap own)) ∧
      (∀ name, name ∈ listed.map Property.name ↔
        ∃ key, Reaches (basesOf P fs) root.key key ∧ name ∈ (own key).map Property.name) ∧
      (listed.map Property.name).Nodup ∧
      ∀ before key after, order = before ++ key :: after → ∀ p ∈ own key,
        ∃ q ∈ listed, ((before ++ [key]).flatMap own).find? (·.name = p.name) = some q := by
  intro own listed
  obtain ⟨order, horder, hlisted⟩ := exists_order hinherited hprops hnoError
  refine ⟨order, horder, horder.mem_iff_reaches, horder.nodup, hlisted, fun name => ?_, ?_,
    fun before key after hsplit p hp => ?_⟩
  · change listed = _ at hlisted
    rw [hlisted, ((sortProperties_perm _).map _).mem_iff, mem_names_firstOfEachName,
      List.map_flatMap, List.mem_flatMap]
    exact exists_congr fun key => and_congr_left fun _ => horder.mem_iff_reaches key
  · change listed = _ at hlisted
    rw [hlisted, ((sortProperties_perm _).map _).nodup_iff]
    exact nodup_names_firstOfEachName _
  · obtain ⟨q, hq⟩ : ∃ q, ((before ++ [key]).flatMap own).find? (·.name = p.name) = some q := by
      refine Option.isSome_iff_exists.mp (List.find?_isSome.mpr ⟨p, ?_, by simp⟩)
      exact List.mem_flatMap.mpr ⟨key, by simp, hp⟩
    have hname : q.name = p.name := by simpa using List.find?_some hq
    refine ⟨q, ?_, hq⟩
    change listed = _ at hlisted
    -- what is found up to `key` is also the first of its name in the whole order
    rw [hlisted, mem_sortProperties, mem_firstOfEachName, hsplit, ← List.singleton_append,
      ← List.append_assoc, List.flatMap_append, List.find?_append, hname, hq, Option.some_or]

/-! ## Two files that build on each other -/

/-- Two files whose declarations build on each other. -/
def mutualFiles : FileSystem :=
  (FileSystem.write ⟨.directory 0 [], [], []⟩ (Path.ofString "/T.ts") (Text.bytesOf
    ("import\x7bB\x7dfrom\"./B\"\ninterface TProps extends B\x7ba:A\x7d")) 0).write
    (Path.ofString "/B.ts") (Text.bytesOf
      ("import\x7bTProps\x7dfrom\"./T\"\ninterface B extends TProps\x7ba:B;c?:C\x7d")) 0

/-- A project that has not read anything yet. -/
def mutualProject : Project := { base := ⟨.root, []⟩ }

/-- The declarations of the two files. -/
def mutualKeys : DeclarationKey × DeclarationKey :=
  ((⟨.root, ["T.ts"]⟩, "TProps"), (⟨.root, ["B.ts"]⟩, "B"))

theorem mutual_eq_sort_depthFirst :
    (properties mutualFiles ["React."] { inheritedProperties := true } mutualProject
        (Path.ofString "/T.ts") "T.ts").1 =
      sortProperties [⟨"a", "A", true, none, none⟩, ⟨"c", "C", false, none, none⟩] := by
  have hfacts :
      (∀ d ∈ (properties mutualFiles ["React."] { inheritedProperties := true } mutualProject
        (Path.ofString "/T.ts") "T.ts").2.2, d.severity ≠ .error) ∧
      basesOf mutualProject mutualFiles mutualKeys.1 = [mutualKeys.2] ∧
      basesOf mutualProject mutualFiles mutualKeys.2 = [mutualKeys.1] ∧
      (propsNode? mutualFiles mutualProject (Path.ofString "/T.ts")).map (fun root =>
        (root.key, firstOfEachName ([mutualKeys.1, mutualKeys.2].flatMap (ownProperties
          mutualProject mutualFiles
          (settingFor ["React."] { inheritedProperties := true } root.1 root.2))))) =
        some (mutualKeys.1, [⟨"a", "A", true, none, none⟩, ⟨"c", "C", false, none, none⟩]) := by
    decide +kernel
  obtain ⟨hnoError, hfirst, hsecond, hroot⟩ := hfacts
  obtain ⟨root, hprops, hroot⟩ := Option.map_eq_some_iff.mp hroot
  obtain ⟨hkey, hown⟩ := Prod.mk.inj hroot
  obtain ⟨order, horder, -, -, hlisted, -⟩ := properties_eq_sort_depthFirst rfl hprops hnoError
  have hwalk : DepthFirst (basesOf mutualProject mutualFiles) [] [root.key]
      [mutualKeys.1, mutualKeys.2] := by
    rw [hkey]
    refine .visit (by decide) ?_
    rw [hfirst]
    refine .visit (by decide) ?_
    rw [hsecond]
    exact .skip (by decide) (.done _)
  rw [hlisted, horder.unique hwalk, hown]

end ComponentDocs.Extraction
