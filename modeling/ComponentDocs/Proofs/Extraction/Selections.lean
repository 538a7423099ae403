import ComponentDocs.Proofs.Curated.MergedProperties
import ComponentDocs.Proofs.Extraction.ComponentWalk

/-!
# What a selection leaves out

Of the four options of a selection only one decides which declarations are visited.  The other
three decide what is shown of the properties found there, and each does so on its own: selecting
less comes to the same as selecting more and then taking something away (`properties_selection`).

* **The walk.**  `exists_visited` splits the extraction of a file into the declarations visited,
  which depend on `inheritedProperties` alone, and the listing of their properties.
* **Redactions.**  What an option takes away is a `Redaction`: a property loses its description or
  its default value, or drops out altogether, and whether it drops out is a matter of its name.  So
  redacting commutes with keeping the first of each name (`firstOfEachName_filterMap`) and with
  sorting (`sort_filterMap`), and it is enough to know what happens to single members.
-/

namespace ComponentDocs

/-- The property without its description. -/
def Property.undescribed (p : Property) : Property := { p with description := none }

/-- The property without its default value. -/
def Property.withoutDefault (p : Property) : Property := { p with defaultValue := none }

/-- Whether the name of a property starts with an underscore. -/
def Property.isPrivate (p : Property) : Bool := p.name.toList.head? == some '_'

theorem Property.Before.asymm {p q : Property} (hpq : p.Before q) : ¬ q.Before p := by
  intro hqp
  rcases hpq with ⟨hp, hq⟩ | ⟨hsame, hname⟩
  · rcases hqp with ⟨hq', -⟩ | ⟨hsame, -⟩ <;> simp_all
  · rcases hqp with ⟨hq, hp⟩ | ⟨-, hname'⟩
    · simp_all
    · exact absurd hname' hname.asymm

namespace Extraction

open Source Project

/-! ## Redactions -/

/-- What is left of each property keeps its name and its place in the listing order, and whether
anything is left depends on the name alone. -/
structure Redaction (redact : Property → Option Property) : Prop where
  name_eq : ∀ {p q}, redact p = some q → q.name = p.name
  required_eq : ∀ {p q}, redact p = some q → q.required = p.required
  isSome_congr : ∀ {p q : Property}, p.name = q.name → (redact p).isSome = (redact q).isSome

theorem Redaction.of_map {f : Property → Property} (hname : ∀ p, (f p).name = p.name)
    (hrequired : ∀ p, (f p).required = p.required) : Redaction fun p => some (f p) where
  name_eq hredact := Option.some.inj hredact ▸ hname _
  required_eq hredact := Option.some.inj hredact ▸ hrequired _
  isSome_congr _ := rfl

theorem Redaction.of_filter {keep : Property → Bool}
    (hkeep : ∀ p q : Property, p.name = q.name → keep p = keep q) : Redaction (Option.guard keep) where
  name_eq hredact := by rw [(Option.guard_eq_some_iff.mp hredact).1]
  required_eq hredact := by rw [(Option.guard_eq_some_iff.mp hredact).1]
  isSome_congr hname := by simp [Option.guard, hkeep _ _ hname, apply_ite Option.isSome]

section Redacting

variable {redact : Property → Option Property} {ps : List Property}

theorem firstOfEachName_filterMap (hredact : Redaction redact) (ps : List Property) :
    firstOfEachName (ps.filterMap redact) = (firstOfEachName ps).filterMap redact := by
  induction ps with
  | nil => rfl
  | cons p rest ih =>
      rw [firstOfEachName_cons]
      cases hp : redact p with
      | none =>
          -- what is left out of `rest` for having the name of `p` drops out on both sides
          rw [List.filterMap_cons_none hp, List.filterMap_cons_none hp, ih, List.filterMap_filter]
          refine List.filterMap_congr fun q _ => ?_
          by_cases hname : q.name = p.name
          · have hnone : (redact q).isSome = false := by rw [hredact.isSome_congr hname, hp]; rfl
            simpa [hname] using hnone
          · simp [hname]
      | some first =>
          rw [List.filterMap_cons_some hp, List.filterMap_cons_some hp, firstOfEachName_cons, ih,
            List.filter_filterMap, List.filterMap_filter, hredact.name_eq hp]
          refine congrArg _ (List.filterMap_congr fun q _ => ?_)
          cases hq : redact q with
          | none => simp
          | some other => simp [Option.filter, hredact.name_eq hq]

theorem sort_filterMap (hredact : Redaction redact) (hnames : (ps.map Property.name).Nodup) :
    sortProperties (ps.filterMap redact) = (sortProperties ps).filterMap redact := by
  have hredacted : ((ps.filterMap redact).map Property.name).Nodup := by
    rw [List.Nodup, List.pairwise_map] at hnames ⊢
    refine hnames.filterMap redact fun p q hpq p' hp q' hq => ?_
    rwa [hredact.name_eq hp, hredact.name_eq hq]
  have hsorted : ((sortProperties ps).filterMap redact).Pairwise Property.Before := by
    refine (pairwise_before_sortProperties hnames).filterMap redact fun p q hpq p' hp q' hq => ?_
    rwa [Property.Before, hredact.name_eq hp, hredact.name_eq hq, hredact.required_eq hp,
      hredact.required_eq hq]
  have hperm : (sortProperties (ps.filterMap redact)).Perm ((sortProperties ps).filterMap redact) :=
    calc (sortProperties (ps.filterMap redact)).Perm (ps.filterMap redact) := List.mergeSort_perm _ _
      List.Perm _ ((sortProperties ps).filterMap redact) :=
        ((List.mergeSort_perm ps Property.precedes).filterMap redact).symm
  -- names differ, so there is one order only
  exact hperm.eq_of_pairwise (fun p q _ _ hpq hqp => absurd hqp hpq.asymm)
    (pairwise_before_sortProperties hredacted) hsorted

theorem sort_listed_filterMap (hredact : Redaction redact) {more less : Setting}
    (hmembers : ∀ d, members less d = (members more d).filterMap redact) (nodes : List Node) :
    sortProperties (listed less nodes) = (sortProperties (listed more nodes)).filterMap redact := by
  have hown : (nodes.flatMap fun n => members less n.2) =
      (nodes.flatMap fun n => members more n.2).filterMap redact := by
    rw [List.filterMap_flatMap]
    exact List.flatMap_congr fun n _ => hmembers n.2
  rw [listed, hown, firstOfEachName_filterMap hredact, listed,
    sort_filterMap hredact (nodup_names_firstOfEachName _)]

end Redacting

/-! ## The declarations visited -/

variable {fs : FileSystem} {namespaces : List String} {P : Project} {path : Path} {given : String}
  {file : ParsedFile} {declaration : Declaration}

/-- Whether inherited properties are selected decides which declarations are visited, and nothing
else does. -/
theorem exists_visited (fs : FileSystem) (namespaces : List String) (P : Project) (given : String)
    (hprops : propsDeclaration? file = some declaration) (inherited : Bool) :
    ∃ visited : Except Fault (List Node) × Walk, ∀ selection : PropertySelection,
      selection.inheritedProperties = inherited →
      walkOf fs namespaces selection P given file =
        (visited.1.map fun nodes =>
            sortProperties (listed (settingFor namespaces selection file declaration) nodes),
          visited.2) := by
  cases inherited with
  | true =>
      refine ⟨(visit fs (declarationBound fs (P.keeping file) + 1) [] file declaration).run
        ⟨P.keeping file, [], []⟩, fun selection hselection => ?_⟩
      rw [walkOf_of_some hprops, expand_eq_map_visit hselection, Walking.run_map]
      cases ((visit fs (declarationBound fs (P.keeping file) + 1) [] file declaration).run
        ⟨P.keeping file, [], []⟩).1 <;> rfl
  | false =>
      refine ⟨(.ok [(file, declaration)], Walking.marking ⟨P.keeping file, [], []⟩
        (Node.key (file, declaration))), fun selection hselection => ?_⟩
      have hsetting : (settingFor namespaces selection file declaration).selection = selection :=
        rfl
      rw [walkOf_of_some hprops, expand_run, hsetting, hselection]
      simp [listed, Except.map]

/-- Selecting less redacts what is listed; what is read and reported stays the same. -/
theorem properties_filterMap {redact : Property → Option Property} (hredact : Redaction redact)
    {more less : PropertySelection} (hinherited : less.inheritedProperties = more.inheritedProperties)
    (hmembers : ∀ file declaration d, members (settingFor namespaces less file declaration) d =
      (members (settingFor namespaces more file declaration) d).filterMap redact) :
    properties fs namespaces less P path given =
      (properties fs namespaces more P path given).map (List.filterMap redact) id := by
  rw [properties_eq, properties_eq]
  cases fs.canonical path with
  | error e => rfl
  | ok place =>
      dsimp only
      cases P.fileAt fs place with
      | error e => rfl
      | ok file =>
          dsimp only
          cases hprops : propsDeclaration? file with
          | none =>
              rw [walkOf_of_none hprops, walkOf_of_none hprops]
              rfl
          | some declaration =>
              obtain ⟨visited, hvisited⟩ :=
                exists_visited fs namespaces P given hprops more.inheritedProperties
              rw [hvisited more rfl, hvisited less hinherited]
              obtain ⟨_ | nodes, w⟩ := visited
              · rfl
              · simp only [Except.map, outcome, Prod.map, id_eq,
                  sort_listed_filterMap hredact (hmembers file declaration)]

/-! ## One member -/

theorem members_filterMap {redact : Property → Option Property} {more less : Setting}
    (hproperty : ∀ signature comments,
      property? less signature comments = (property? more signature comments).bind redact)
    (d : Declaration) : members less d = (members more d).filterMap redact := by
  rw [members, members, List.filterMap_filterMap]
  exact List.filterMap_congr fun documented _ => hproperty documented.1 documented.2

variable {selection : PropertySelection}

theorem property?_undescribed (signature : PropertySignature) (comments : List String) :
    property? (settingFor namespaces { selection with descriptions := false } file declaration)
        signature comments =
      (property? (settingFor namespaces { selection with descriptions := true } file declaration)
        signature comments).bind fun p => some p.undescribed := by
  unfold property? settingFor
  dsimp only
  split <;> simp [Property.undescribed]

theorem property?_withoutDefault (signature : PropertySignature) (comments : List String) :
    property? (settingFor namespaces { selection with defaultValues := false } file declaration)
        signature comments =
      (property? (settingFor namespaces { selection with defaultValues := true } file declaration)
        signature comments).bind fun p => some p.withoutDefault := by
  unfold property? settingFor
  dsimp only
  split <;> simp [Property.withoutDefault]

theorem property?_public (signature : PropertySignature) (comments : List String) :
    property? (settingFor namespaces { selection with privateProperties := false } file declaration)
        signature comments =
      (property? (settingFor namespaces { selection with privateProperties := true } file
        declaration) signature comments).bind (Option.guard fun p => !p.isPrivate) := by
  unfold property? settingFor
  simp only [Bool.not_false, Bool.and_true, Bool.not_true, Bool.and_false, Bool.false_eq_true,
    if_false, Option.bind_some, Option.guard, Property.isPrivate]
  split <;> simp_all

/-! ## Selections -/

/-- **The options of a selection act independently.**  Whatever the other three are, without
descriptions the same properties are listed with their descriptions cleared, without default values
they are listed with these cleared, and without private properties just those are left out whose
name starts with an underscore.  The files that are read and what is reported do not depend on any
of the three. -/
theorem properties_selection (fs : FileSystem) (namespaces : List String)
    (selection : PropertySelection) (P : Project) (path : Path) (given : String) :
    let extracted := fun selection => properties fs namespaces selection P path given
    extracted { selection with descriptions := false } =
        (extracted { selection with descriptions := true }).map
          (List.map Property.undescribed) id ∧
      extracted { selection with defaultValues := false } =
        (extracted { selection with defaultValues := true }).map
          (List.map Property.withoutDefault) id ∧
      extracted { selection with privateProperties := false } =
        (extracted { selection with privateProperties := true }).map
          (List.filter fun p => !p.isPrivate) id := by
  intro extracted
  refine ⟨?descriptions, ?defaults, ?privates⟩
  case descriptions =>
    have hredact : Redaction fun p => some p.undescribed := .of_map (fun _ => rfl) fun _ => rfl
    rw [← List.filterMap_eq_map']
    exact properties_filterMap hredact rfl fun _ _ => members_filterMap property?_undescribed
  case defaults =>
    have hredact : Redaction fun p => some p.withoutDefault := .of_map (fun _ => rfl) fun _ => rfl
    rw [← List.filterMap_eq_map']
    exact properties_filterMap hredact rfl fun _ _ => members_filterMap property?_withoutDefault
  case privates =>
    have hredact : Redaction (Option.guard fun p => !p.isPrivate) :=
      .of_filter fun p q hname => by simp [Property.isPrivate, hname]
    rw [← List.filterMap_eq_filter]
    exact properties_filterMap hredact rfl fun _ _ => members_filterMap property?_public

end Extraction

end ComponentDocs
