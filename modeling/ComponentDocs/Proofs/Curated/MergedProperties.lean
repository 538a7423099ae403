import Mathlib.Data.List.Nodup
import Mathlib.Data.String.Basic
import ComponentDocs.Merging

/-!
# Merged properties

What merging does to the names of properties and to their order.  Merging keeps the names of the
extracted properties and adds those that are curated only, so no name is listed twice
(`Merging.nodup_names_properties`).  Since names differ, the listing order leaves no choice
(`pairwise_before_sortProperties`).
-/

namespace ComponentDocs

/-! ## Listing order -/

/-- Whether a property must be listed before another one: required ones come first, then names
decide, by code points. -/
def Property.Before (p q : Property) : Prop :=
  (p.required = true ∧ q.required = false) ∨ (p.required = q.required ∧ p.name < q.name)

namespace Property

variable {p q : Property}

theorem precedes_iff : p.precedes q = true ↔
    (p.required = true ∧ q.required = false) ∨ (p.required = q.required ∧ p.name ≤ q.name) := by
  unfold precedes
  by_cases hsame : p.required = q.required
  · simp [hsame]
  · cases hp : p.required <;> cases hq : q.required <;> simp_all

theorem precedes_trans (p q r : Property) (hpq : p.precedes q = true)
    (hqr : q.precedes r = true) : p.precedes r = true := by
  rw [precedes_iff] at hpq hqr ⊢
  rcases hpq with ⟨hp, hq⟩ | ⟨hpq, hname⟩
  · rcases hqr with ⟨hq', -⟩ | ⟨hqr, -⟩
    · exact absurd (hq'.symm.trans hq) (by decide)
    · exact .inl ⟨hp, hqr ▸ hq⟩
  · rcases hqr with ⟨hq, hr⟩ | ⟨hqr, hname'⟩
    · exact .inl ⟨hpq ▸ hq, hr⟩
    · exact .inr ⟨hpq.trans hqr, hname.trans hname'⟩

theorem precedes_total (p q : Property) : (p.precedes q || q.precedes p) = true := by
  rw [Bool.or_eq_true, precedes_iff, precedes_iff]
  rcases le_total p.name q.name with hname | hname <;>
    cases p.required <;> cases q.required <;> simp [hname]

theorem Before.of_precedes (hpq : p.precedes q = true) (hname : p.name ≠ q.name) :
    p.Before q := by
  rcases precedes_iff.mp hpq with hrequired | ⟨hrequired, hle⟩
  · exact .inl hrequired
  · exact .inr ⟨hrequired, lt_of_le_of_ne hle hname⟩

end Property

@[simp] theorem nodup_names_sortProperties {ps : List Property} :
    ((sortProperties ps).map Property.name).Nodup ↔ (ps.map Property.name).Nodup :=
  ((List.mergeSort_perm ps Property.precedes).map Property.name).nodup_iff

/-- Properties with different names are listed in the only order there is. -/
theorem pairwise_before_sortProperties {ps : List Property}
    (hnames : (ps.map Property.name).Nodup) :
    (sortProperties ps).Pairwise Property.Before := by
  have hsorted : (sortProperties ps).Pairwise fun p q => p.precedes q = true :=
    List.pairwise_mergeSort Property.precedes_trans Property.precedes_total ps
  have hdistinct : (sortProperties ps).Pairwise fun p q => p.name ≠ q.name :=
    List.pairwise_map.mp (nodup_names_sortProperties.mpr hnames)
  exact hsorted.imp₂ (fun p q hpq hname => .of_precedes hpq hname) hdistinct

namespace Merging

variable {curated pending : List CuratedProperty} {extracted : List Property}

/-- One more curated property: it takes the place of the one with its name, if there is one. -/
def restate (done : List CuratedProperty) (c : CuratedProperty) : List CuratedProperty :=
  if done.any (·.name = c.name) then done.map fun d => if d.name = c.name then c else d
  else done ++ [c]

theorem byName_eq_foldl (curated : List CuratedProperty) :
    byName curated = curated.foldl restate [] := rfl

theorem map_name_restate (done : List CuratedProperty) (c : CuratedProperty) :
    (restate done c).map CuratedProperty.name =
      if c.name ∈ done.map CuratedProperty.name then done.map CuratedProperty.name
      else done.map CuratedProperty.name ++ [c.name] := by
  have hany : done.any (·.name = c.name) ↔ c.name ∈ done.map CuratedProperty.name := by
    simp
  unfold restate
  by_cases hknown : c.name ∈ done.map CuratedProperty.name
  · rw [if_pos (hany.mpr hknown), if_pos hknown, List.map_map]
    refine List.map_congr_left fun d _ => ?_
    rw [Function.comp_apply]
    split_ifs with hname
    · exact hname.symm
    · rfl
  · rw [if_neg (mt hany.mp hknown), if_neg hknown, List.map_append, List.map_singleton]

theorem nodup_names_restate {done : List CuratedProperty} (c : CuratedProperty)
    (hdone : (done.map CuratedProperty.name).Nodup) :
    ((restate done c).map CuratedProperty.name).Nodup := by
  rw [map_name_restate]
  split_ifs with hknown
  · exact hdone
  · rw [List.nodup_append]
    refine ⟨hdone, List.nodup_singleton _, ?_⟩
    intro name hname other hother heq
    rw [List.mem_singleton] at hother
    exact hknown (hother ▸ heq ▸ hname)

/-- Of each name one curated property counts. -/
theorem nodup_names_byName (curated : List CuratedProperty) :
    ((byName curated).map CuratedProperty.name).Nodup := by
  have hfold : ∀ done : List CuratedProperty, (done.map CuratedProperty.name).Nodup →
      ((curated.foldl restate done).map CuratedProperty.name).Nodup := by
    induction curated with
    | nil => exact fun done hdone => hdone
    | cons c rest ih => exact fun done hdone => ih (restate done c) (nodup_names_restate c hdone)
  rw [byName_eq_foldl]
  exact hfold [] List.nodup_nil

/-- Curated properties with different names all count, as they stand. -/
theorem byName_of_nodup (hnames : (curated.map CuratedProperty.name).Nodup) :
    byName curated = curated := by
  have hfold : ∀ done : List CuratedProperty,
      ((done ++ curated).map CuratedProperty.name).Nodup →
        curated.foldl restate done = done ++ curated := by
    -- the names of `done` have to be different from those to come, so `done` grows along
    clear hnames
    induction curated with
    | nil => exact fun done _ => (List.append_nil done).symm
    | cons c rest ih =>
        intro done hdone
        have hnew : ¬ done.any (·.name = c.name) := by
          rw [List.map_append, List.map_cons, List.nodup_append] at hdone
          have hother := hdone.2.2
          simp only [List.any_eq_true, decide_eq_true_eq, not_exists, not_and]
          exact fun d hd => hother d.name (List.mem_map_of_mem hd) c.name List.mem_cons_self
        rw [List.append_cons] at hdone
        rw [List.foldl_cons, restate, if_neg hnew, ih (done ++ [c]) hdone, ← List.append_cons]
  rw [byName_eq_foldl, hfold [] (by simpa using hnames), List.nil_append]

/-! ## Merging -/

/-- Applying curated properties keeps the extracted ones and their names. -/
theorem map_name_applyAll (pending : List CuratedProperty) (extracted : List Property) :
    (applyAll pending extracted).1.map Property.name = extracted.map Property.name := by
  induction extracted generalizing pending with
  | nil => rfl
  | cons p rest ih =>
      rw [applyAll]
      cases pending.find? (·.name = p.name) with
      | none => exact congrArg (p.name :: ·) (ih pending)
      | some c => exact congrArg (p.name :: ·) (ih _)

/-- Those curated properties are left over that no extracted one has the name of. -/
theorem left_applyAll (pending : List CuratedProperty) (extracted : List Property) :
    (applyAll pending extracted).2 =
      pending.filter fun c => c.name ∉ extracted.map Property.name := by
  induction extracted generalizing pending with
  | nil => simp [applyAll]
  | cons p rest ih =>
      rw [applyAll]
      cases hfound : pending.find? (·.name = p.name) with
      | none =>
          have hnone : ∀ c ∈ pending, c.name ≠ p.name := by
            simpa using List.find?_eq_none.mp hfound
          refine (ih pending).trans (List.filter_congr fun c hc => ?_)
          simp [hnone c hc]
      | some c =>
          -- a property takes all that is pending under its name, not only the one found first
          refine (ih _).trans ?_
          rw [List.filter_filter]
          refine List.filter_congr fun c _ => ?_
          by_cases hname : c.name = p.name <;> simp [hname]

private theorem nodup_names_applyAll (hextracted : (extracted.map Property.name).Nodup)
    (curated : List CuratedProperty) :
    (((applyAll (byName curated) extracted).1 ++
      (applyAll (byName curated) extracted).2.map CuratedProperty.toProperty).map
        Property.name).Nodup := by
  have hleft (cs : List CuratedProperty) :
      (cs.map CuratedProperty.toProperty).map Property.name = cs.map CuratedProperty.name := by
    rw [List.map_map]
    rfl
  rw [List.map_append, hleft, map_name_applyAll, left_applyAll, List.nodup_append]
  refine ⟨hextracted, (nodup_names_byName curated).sublist (List.filter_sublist.map _), ?_⟩
  rintro name hname _ hother rfl
  obtain ⟨c, hc, rfl⟩ := List.mem_map.mp hother
  exact absurd hname (by simpa using (List.mem_filter.mp hc).2)

/-- **Merging lists no name twice**, if extraction has listed none twice. -/
theorem nodup_names_properties (hextracted : (extracted.map Property.name).Nodup)
    (curated : List CuratedProperty) :
    ((properties extracted curated).map Property.name).Nodup :=
  nodup_names_sortProperties.mpr (nodup_names_applyAll hextracted curated)

/-- **Merged properties stand in listing order**, whatever is curated of them. -/
theorem pairwise_before_properties (hextracted : (extracted.map Property.name).Nodup)
    (curated : List CuratedProperty) :
    (properties extracted curated).Pairwise Property.Before :=
  pairwise_before_sortProperties (nodup_names_applyAll hextracted curated)

/-- Without extracted properties, the curated ones stand for themselves. -/
theorem properties_nil (hnames : (curated.map CuratedProperty.name).Nodup) :
    properties [] curated = sortProperties (curated.map CuratedProperty.toProperty) := by
  rw [properties, byName_of_nodup hnames]
  rfl

end Merging

end ComponentDocs
