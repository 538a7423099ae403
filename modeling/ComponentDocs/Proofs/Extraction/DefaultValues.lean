import Mathlib.Data.List.Induction
import ComponentDocs.Proofs.Extraction.InheritanceOrder

/-!
# Where default values come from

A property of a component, whether the component declares it or inherits it, has the default value
that the component's pattern gives to its name, the last one if there are several; one without such
a value has the one that the documentation comment above its member states, if any
(`hasDefault_of_mem_properties`).

* **The pattern.**  Only its own elements give values, each to its property key (`Gives`), so that
  `defaultOf?` finds the last one given (`defaultOf?_cases`).
* **The member.**  A listed property is that of the first member of its name along the walk
  (`exists_firstMember`), and the comments that count are those directly above that member
  (`standsBelow_of_mem_documented`).
-/

namespace ComponentDocs

namespace Source

/-- An element of a pattern gives a value to a property. -/
inductive PatternElement.Gives : PatternElement → String → String → Prop
  | shorthand (name value : String) : Gives (.shorthand name value) name value
  | renamed (key value : String) : Gives (.renamed key value) (Naming.unquote key) value

/-- The text of an item that is a comment. -/
def BodyItem.commentText? : BodyItem → Option String
  | .comment text _ => some text
  | _ => none

end Source

namespace Extraction

open Source Project ComponentDocs.Graph

/-! ## The values that a pattern gives -/

theorem elementDefault_eq_some_iff {e : PatternElement} {name stated : String} :
    elementDefault e = some (name, stated) ↔
      ∃ value, e.Gives name value ∧ stated = Text.collapsed value := by
  constructor
  · intro hstated
    cases e with
    | shorthand key value =>
        cases hstated
        exact ⟨value, .shorthand .., rfl⟩
    | renamed key value =>
        cases hstated
        exact ⟨value, .renamed .., rfl⟩
    | plain => cases hstated
  · rintro ⟨value, hgives, rfl⟩
    cases hgives <;> rfl

/-- The default value found for a property is the last one given to it. -/
theorem defaultOf?_cases (pattern : List PatternElement) (name : String) :
    (∃ before e after value, pattern = before ++ e :: after ∧ e.Gives name value ∧
        (∀ later ∈ after, ∀ other, ¬ later.Gives name other) ∧
        defaultOf? (pattern.filterMap elementDefault) name = some (Text.collapsed value)) ∨
      (∀ e ∈ pattern, ∀ value, ¬ e.Gives name value) ∧
        defaultOf? (pattern.filterMap elementDefault) name = none := by
  induction pattern using List.reverseRecOn with
  | nil => exact .inr ⟨by simp, rfl⟩
  | append_singleton rest e ih =>
      by_cases hgives : ∃ value, e.Gives name value
      · obtain ⟨value, hgives⟩ := hgives
        refine .inl ⟨rest, e, [], value, rfl, hgives, by simp, ?_⟩
        have hstated := elementDefault_eq_some_iff.mpr ⟨value, hgives, rfl⟩
        simp [defaultOf?, List.filterMap_append, hstated]
      · push Not at hgives
        have hsame : defaultOf? ((rest ++ [e]).filterMap elementDefault) name =
            defaultOf? (rest.filterMap elementDefault) name := by
          rw [defaultOf?, defaultOf?, List.filterMap_append, List.reverse_append,
            List.lookup_append]
          cases hstated : elementDefault e with
          | none => simp [hstated]
          | some given =>
              obtain ⟨key, stated⟩ := given
              have hother : name ≠ key := by
                rintro rfl
                obtain ⟨value, hvalue, -⟩ := elementDefault_eq_some_iff.mp hstated
                exact hgives value hvalue
              simp [hstated, hother]
        rw [hsame]
        rcases ih with ⟨before, last, after, value, rfl, hlast, hafter, hlookup⟩ | ⟨hnone, hlookup⟩
        · refine .inl ⟨before, last, after ++ [e], value, by simp, hlast, ?_, hlookup⟩
          simpa [or_imp, forall_and] using ⟨hafter, hgives⟩
        · refine .inr ⟨?_, hlookup⟩
          simpa [or_imp, forall_and] using ⟨hnone, hgives⟩

/-- What the default value of a property comes from: the last value that the pattern gives to its
name, or else the first tag with a text in the documentation comment above its member. -/
inductive HasDefault (pattern : List PatternElement) (comments : List String) (name : String) :
    Option String → Prop
  | given {before e after value} (hpattern : pattern = before ++ e :: after)
      (hgives : e.Gives name value)
      (hlast : ∀ later ∈ after, ∀ other, ¬ later.Gives name other) :
      HasDefault pattern comments name (some (Text.collapsed value))
  | documented (hnone : ∀ e ∈ pattern, ∀ value, ¬ e.Gives name value) :
      HasDefault pattern comments name ((docComment? comments).bind fun doc =>
        ["default", "defaultValue"].findSome? fun tag => (doc.tags.lookup tag).filter (· ≠ ""))

/-! ## The comments above a member -/

/-- A property stands in a body directly below the given comments. -/
def StandsBelow (comments : List String) (signature : PropertySignature) (body : List BodyItem) :
    Prop :=
  ∃ before above line lastLine after,
    body = before ++ above ++ .property signature line lastLine :: after ∧
      above.map BodyItem.commentText? = comments.map some ∧
      ∀ item ∈ before.getLast?, item.commentText? = none

private theorem standsBelow_of_mem_documentedFrom {signature : PropertySignature}
    {comments run : List String} {above items : List BodyItem}
    (habove : above.map BodyItem.commentText? = run.map some)
    (hmem : (signature, comments) ∈ documentedFrom run items) :
    StandsBelow comments signature (above ++ items) := by
  induction items generalizing run above with
  | nil => cases hmem
  | cons item rest ih =>
      -- what stands after an item that is no comment is seen from there
      have hrest (hitem : item.commentText? = none)
          (hmem : (signature, comments) ∈ documentedFrom [] rest) :
          StandsBelow comments signature (above ++ item :: rest) := by
        obtain ⟨before, between, line, lastLine, after, hsplit, htexts, hbefore⟩ :=
          @ih [] [] rfl hmem
        refine ⟨above ++ item :: before, between, line, lastLine, after, ?_, htexts, ?_⟩
        · rw [List.nil_append] at hsplit
          simp [hsplit]
        · intro last hlast
          rw [List.getLast?_append_of_ne_nil _ (List.cons_ne_nil _ _), List.getLast?_cons] at hlast
          cases hlastBefore : before.getLast? with
          | none =>
              simp only [hlastBefore, Option.getD_none, Option.mem_some_iff] at hlast
              exact hlast ▸ hitem
          | some other =>
              simp only [hlastBefore, Option.getD_some, Option.mem_some_iff] at hlast
              exact hlast ▸ hbefore other hlastBefore
      cases item with
      | comment text line =>
          have := @ih (run ++ [text]) (above ++ [.comment text line])
            (by simp [habove, BodyItem.commentText?]) hmem
          rwa [List.append_assoc] at this
      | property other line lastLine =>
          rcases List.mem_cons.mp hmem with hsame | hmem
          · cases hsame
            exact ⟨[], above, line, lastLine, rest, rfl, habove, by simp⟩
          · exact hrest rfl hmem
      | other line lastLine => exact hrest rfl hmem

/-- The comments that count for a member stand directly above it. -/
theorem standsBelow_of_mem_documented {signature : PropertySignature} {comments : List String}
    {body : List BodyItem} (hmem : (signature, comments) ∈ documented body) :
    StandsBelow comments signature body := by
  rw [← List.nil_append body]
  exact standsBelow_of_mem_documentedFrom rfl hmem

/-! ## The member behind a property -/

/-- The members of several declarations in order, each with the comments directly above it. -/
def membersAlong (nodes : List Node) : List (PropertySignature × List String) :=
  nodes.flatMap fun n => n.2.bodies.flatMap documented

/-- The first member of a name in several declarations, with the comments directly above it. -/
structure FirstMember (nodes : List Node) (name : String) (signature : PropertySignature)
    (comments : List String) : Prop where
  name_eq : Naming.unquote signature.name = name
  first : ∃ before after, membersAlong nodes = before ++ (signature, comments) :: after ∧
    ∀ earlier ∈ before, Naming.unquote earlier.1.name ≠ name

section Members

variable {setting : Setting} {signature : PropertySignature} {comments : List String}
  {p : Property} {nodes : List Node}

theorem of_property?_eq_some (hp : property? setting signature comments = some p) :
    p.name = Naming.unquote signature.name ∧
      p.defaultValue = if setting.selection.defaultValues then
          (defaultOf? setting.defaults p.name).or
            ((docComment? comments).bind DocComment.defaultValue?)
        else none := by
  unfold property? at hp
  dsimp only at hp
  split at hp
  · cases hp
  · cases hp
    exact ⟨rfl, by simp only [Option.orElse_eq_orElse, Option.orElse_eq_or]⟩

/-- Whether a member is listed depends on its name alone. -/
theorem isSome_property?_congr {other : PropertySignature} {above : List String}
    (hname : Naming.unquote other.name = Naming.unquote signature.name) :
    (property? setting other above).isSome = (property? setting signature comments).isSome := by
  simp only [property?, hname, apply_ite Option.isSome, Option.isSome_none, Option.isSome_some]

/-- A property that several declarations list is that of the first member of its name. -/
theorem exists_firstMember (hp : p ∈ listed setting nodes) :
    ∃ signature comments, FirstMember nodes p.name signature comments ∧
      property? setting signature comments = some p := by
  have hmembers : (nodes.flatMap fun n => members setting n.2) =
      (membersAlong nodes).filterMap fun m => property? setting m.1 m.2 := by
    rw [membersAlong, List.filterMap_flatMap]
    rfl
  rw [listed, mem_firstOfEachName, hmembers, List.find?_filterMap, Option.bind_eq_some_iff] at hp
  obtain ⟨⟨signature, comments⟩, hfind, hp⟩ := hp
  have hname := (of_property?_eq_some hp).1
  obtain ⟨-, before, after, hsplit, hbefore⟩ := List.find?_eq_some_iff_append.mp hfind
  refine ⟨signature, comments, ⟨hname.symm, before, after, hsplit, fun m hm hsame => ?_⟩, hp⟩
  -- an earlier member of the same name would be listed as well
  have hlisted : (property? setting m.1 m.2).isSome := by
    rw [isSome_property?_congr (hsame.trans hname), hp, Option.isSome_some]
  obtain ⟨q, hq⟩ := Option.isSome_iff_exists.mp hlisted
  have hskipped := hbefore m hm
  rw [hq] at hskipped
  simp [(of_property?_eq_some hq).1, hsame] at hskipped

/-- The first member of a name stands in one of the declarations, below the comments that count. -/
theorem FirstMember.standsBelow {name : String}
    (hfirst : FirstMember nodes name signature comments) :
    ∃ n ∈ nodes, ∃ body ∈ n.2.bodies, StandsBelow comments signature body := by
  obtain ⟨before, after, hsplit, -⟩ := hfirst.first
  have hmem : (signature, comments) ∈ membersAlong nodes := by simp [hsplit]
  obtain ⟨n, hn, hmem⟩ := List.mem_flatMap.mp hmem
  obtain ⟨body, hbody, hmem⟩ := List.mem_flatMap.mp hmem
  exact ⟨n, hn, body, hbody, standsBelow_of_mem_documented hmem⟩

theorem findSome?_tags (doc : DocComment) :
    ["default", "defaultValue"].findSome? (fun tag => (doc.tags.lookup tag).filter (· ≠ "")) =
      doc.defaultValue? := by
  rw [DocComment.defaultValue?, DocComment.tagText?, DocComment.tagText?]
  simp only [List.findSome?_cons, List.findSome?_nil]
  cases (doc.tags.lookup "default").filter (· ≠ "") <;>
    cases (doc.tags.lookup "defaultValue").filter (· ≠ "") <;> rfl

/-- Where the default value of a member's property comes from. -/
theorem hasDefault_of_property? {pattern : List PatternElement}
    (hselected : setting.selection.defaultValues = true)
    (hdefaults : setting.defaults = pattern.filterMap elementDefault)
    (hp : property? setting signature comments = some p) :
    HasDefault pattern comments p.name p.defaultValue := by
  rw [(of_property?_eq_some hp).2, if_pos hselected, hdefaults]
  obtain ⟨before, e, after, value, hpattern, hgives, hlast, hfound⟩ | ⟨hnone, hfound⟩ :=
    defaultOf?_cases pattern p.name
  · rw [hfound]
    exact .given hpattern hgives hlast
  · rw [hfound, Option.none_or, ← funext findSome?_tags]
    exact .documented hnone

end Members

/-! ## What is listed -/

/-- The declarations that are gone through from a props declaration, in order: that one alone, or
all that can be reached. -/
inductive Walked (P : Project) (fs : FileSystem) (root : Node) : Bool → List Node → Prop
  | direct : Walked P fs root false [root]
  | inherited {nodes : List Node} (hshown : ∀ n ∈ nodes, Shown P fs n)
      (horder : DepthFirst (basesOf P fs) [] [root.key] (nodes.map Node.key)) :
      Walked P fs root true nodes

variable {fs : FileSystem} {namespaces : List String} {selection : PropertySelection}
  {P : Project} {place : Path} {given : String} {p : Property}

/-- Extraction lists the properties of the declarations that it goes through. -/
theorem exists_walked (hp : p ∈ (properties fs namespaces selection P place given).1) :
    ∃ root nodes, propsNode? fs P place = some root ∧
      Walked P fs root selection.inheritedProperties nodes ∧
      p ∈ listed (settingFor namespaces selection root.1 root.2) nodes := by
  cases hprops : propsNode? fs P place with
  | none =>
      rw [(properties_of_propsNode?_eq_none hprops).1] at hp
      cases hp
  | some root =>
      cases hinherited : selection.inheritedProperties with
      | false =>
          rw [properties_direct hinherited hprops] at hp
          exact ⟨root, [root], rfl, .direct, mem_sortProperties.mp hp⟩
      | true =>
          obtain ⟨_, -, hfile, -, hshown⟩ := shown_of_propsNode? hprops
          have hkept : SameView fs (P.keeping root.1) P := (extends_keeping hfile).sameView
          rw [properties_of_propsNode? hprops, expand_eq_map_visit hinherited, Walking.run_map]
            at hp
          cases hrun : (visit fs (declarationBound fs (P.keeping root.1) + 1) [] root.1
              root.2).run ⟨P.keeping root.1, [], []⟩ with
          | mk result after =>
              rw [hrun] at hp
              cases result with
              | error e => cases hp
              | ok nodes =>
                  have hwalk := visit_explores _ _ (hshown.congr hkept) _ (Ready.start fs _) hrun
                  refine ⟨root, nodes, rfl, .inherited (fun n hn => ?_) ?_,
                    mem_sortProperties.mp hp⟩
                  · exact (hwalk.shown n hn).congr hkept.symm
                  · exact basesOf_congr hkept ▸ hwalk.order

/-- **The default value of a property is the last one that the component's pattern gives to its
name, or else the one documented directly above its member.**  The member is the first one of the
name in the declarations that are gone through; it may stand in another file than the pattern. -/
theorem hasDefault_of_mem_properties (hselected : selection.defaultValues = true)
    (hp : p ∈ (properties fs namespaces selection P place given).1) :
    ∃ root nodes signature comments, propsNode? fs P place = some root ∧
      Walked P fs root selection.inheritedProperties nodes ∧
      FirstMember nodes p.name signature comments ∧
      (∃ n ∈ nodes, ∃ body ∈ n.2.bodies, StandsBelow comments signature body) ∧
      HasDefault
        ((componentPattern root.1 (componentName root.1.path) root.2.name).getD [])
        comments p.name p.defaultValue := by
  obtain ⟨root, nodes, hprops, hwalked, hlisted⟩ := exists_walked hp
  obtain ⟨signature, comments, hfirst, hproperty⟩ := exists_firstMember hlisted
  refine ⟨root, nodes, signature, comments, hprops, hwalked, hfirst, hfirst.standsBelow, ?_⟩
  exact hasDefault_of_property? hselected (if_pos hselected) hproperty

/-- A component that inherits a property with a documented default value, and whose pattern gives it
another one and takes its value apart in turn. -/
def nestedFiles : FileSystem :=
  (FileSystem.write ⟨.directory 0 [], [], []⟩ (Path.ofString "/T.ts") (Text.bytesOf
    ("import\x7bB\x7dfrom\"./B\"\ninterface TProps extends B\x7b\x7d\n" ++
      "function T(\x7b\"a\":\x7ba=1\x7d=2\x7d:TProps)\x7b\x7d")) 0).write
    (Path.ofString "/B.ts") (Text.bytesOf "interface B\x7b/** @default 3 */a?:A\x7d") 0

theorem nested_hasDefault :
    let selection : PropertySelection := { inheritedProperties := true }
    let p : Property := ⟨"a", "A", false, none, some "2"⟩
    selection.defaultValues = true ∧
      p ∈ (properties nestedFiles ["React."] selection mutualProject (Path.ofString "/T.ts")
        "T.ts").1 ∧
      ∃ root nodes signature comments,
        propsNode? nestedFiles mutualProject (Path.ofString "/T.ts") = some root ∧
        FirstMember nodes p.name signature comments ∧
        HasDefault
          ((componentPattern root.1 (componentName root.1.path) root.2.name).getD [])
          comments p.name p.defaultValue := by
  intro selection p
  have hp : p ∈ (properties nestedFiles ["React."] selection mutualProject (Path.ofString "/T.ts")
      "T.ts").1 := by decide +kernel
  obtain ⟨root, nodes, signature, comments, hprops, -, hfirst, -, hdefault⟩ :=
    hasDefault_of_mem_properties rfl hp
  exact ⟨rfl, hp, root, nodes, signature, comments, hprops, hfirst, hdefault⟩

end Extraction

end ComponentDocs
