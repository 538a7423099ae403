import Mathlib.Data.Bool.Basic
import Mathlib.Data.List.Permutation
import Mathlib.Data.Prod.Lex
import ComponentDocs.Proofs.Curated.MergedProperties

/-!
# Merging by name

`Merging.properties` consumes the curated properties while it goes through the extracted ones.
Said without that bookkeeping it is a function of one table, `lastStated?`, which tells of each name
how it is curated last:

```text
extracted   a  b  a  c          curated   b₁  d₁  b₂  d₂
overlaid    a  b' a  c          added     d₂
```

`overlaid` changes the first extracted property of each name that is curated, `added` lists what is
curated of the names that nothing was extracted for, and both together are sorted
(`properties_eq_sort_overlaid_append_added`).  How often a name is listed and what merging the same
curated properties a second time does follow from that.
-/

namespace ComponentDocs

/-! ## The two lists -/

/-- The property with each field replaced that a curated one sets; an empty type sets nothing. -/
def Property.replacing (p : Property) (c : CuratedProperty) : Property where
  name := p.name
  type := if c.type.getD "" = "" then p.type else c.type.getD ""
  required := c.required.getD p.required
  description := if c.description.isSome then c.description else p.description
  defaultValue := if c.defaultValue.isSome then c.defaultValue else p.defaultValue

/-- A curated property that nothing was extracted for. -/
def CuratedProperty.alone (c : CuratedProperty) : Property :=
  ⟨c.name, c.type.getD "", c.required.getD false, c.description, c.defaultValue⟩

/-- What properties are sorted by: required ones first, then their names. -/
def Property.listingKey (p : Property) : Bool ×ₗ String := toLex (!p.required, p.name)

theorem CuratedProperty.apply_eq_replacing (c : CuratedProperty) (p : Property) :
    c.apply p = p.replacing c := by
  obtain ⟨name, type, required, description, defaultValue⟩ := c
  simp only [CuratedProperty.apply, Property.replacing, Property.mk.injEq, true_and]
  refine ⟨?_, ?_, ?_⟩
  · cases type with
    | none => simp
    | some t => by_cases ht : t = "" <;> simp [Option.filter, ht]
  · cases description <;> rfl
  · cases defaultValue <;> rfl

theorem CuratedProperty.toProperty_eq_alone (c : CuratedProperty) : c.toProperty = c.alone := by
  obtain ⟨name, type, required, description, defaultValue⟩ := c
  rw [CuratedProperty.toProperty, CuratedProperty.apply_eq_replacing]
  simp only [Property.replacing, CuratedProperty.alone, Property.mk.injEq, true_and]
  refine ⟨?_, ?_, ?_⟩
  · split_ifs with ht
    · exact ht.symm
    · rfl
  · cases description <;> rfl
  · cases defaultValue <;> rfl

theorem Property.precedes_eq_listingKey_le (p q : Property) :
    p.precedes q = decide (p.listingKey ≤ q.listingKey) := by
  rw [Bool.eq_iff_iff, Property.precedes_iff, decide_eq_true_eq, Property.listingKey,
    Property.listingKey, Prod.Lex.toLex_le_toLex]
  cases p.required <;> cases q.required <;> simp

/-- What a curated property has replaced it does not change again. -/
theorem Property.replacing_replacing (p : Property) (c : CuratedProperty) :
    (p.replacing c).replacing c = p.replacing c := by
  simp only [Property.replacing, Property.mk.injEq, true_and]
  refine ⟨?_, ?_, ?_, ?_⟩
  · split_ifs <;> rfl
  · cases c.required <;> rfl
  · split_ifs <;> rfl
  · split_ifs <;> rfl

theorem CuratedProperty.replacing_alone (c : CuratedProperty) : c.alone.replacing c = c.alone := by
  rw [← c.toProperty_eq_alone, CuratedProperty.toProperty, c.apply_eq_replacing]
  exact Property.replacing_replacing _ c

namespace Merging

variable {extracted : List Property} {curated : List CuratedProperty} {name : String}

/-- How a name is curated last. -/
def lastStated? (curated : List CuratedProperty) (name : String) : Option CuratedProperty :=
  curated.reverse.find? (·.name = name)

/-- The extracted properties in order; of each name that is curated the first one is replaced. -/
def overlaid (extracted : List Property) (curated : List CuratedProperty) : List Property :=
  extracted.mapIdx fun i p =>
    match lastStated? curated p.name with
    | some c => if p.name ∈ (extracted.take i).map Property.name then p else p.replacing c
    | none => p

/-- The curated properties of names that nothing was extracted for, in the order in which these
names first come up. -/
def added (extracted : List Property) (curated : List CuratedProperty) : List Property :=
  ((curated.map CuratedProperty.name).eraseDups.filter
    (· ∉ extracted.map Property.name)).filterMap fun name =>
      (lastStated? curated name).map CuratedProperty.alone

/-! ## The table of curated properties -/

theorem lastStated?_append_singleton (curated : List CuratedProperty) (c : CuratedProperty) :
    lastStated? (curated ++ [c]) name =
      if c.name = name then some c else lastStated? curated name := by
  unfold lastStated?
  rw [List.reverse_append, List.reverse_singleton, List.singleton_append, List.find?_cons]
  by_cases hname : c.name = name <;> simp [hname]

theorem name_of_lastStated? {c : CuratedProperty} (hc : lastStated? curated name = some c) :
    c.name = name := by
  simpa using List.find?_some hc

private theorem find?_map_of_ne {c : CuratedProperty} (hname : c.name ≠ name)
    (done : List CuratedProperty) :
    (done.map fun d => if d.name = c.name then c else d).find? (·.name = name) =
      done.find? (·.name = name) := by
  induction done with
  | nil => rfl
  | cons d rest ih =>
      rw [List.map_cons, List.find?_cons, List.find?_cons, ih]
      by_cases hd : d.name = c.name
      · have hdn : d.name ≠ name := fun heq => hname (hd.symm.trans heq)
        simp [hd, hname]
      · simp [hd]

private theorem find?_map_self {c : CuratedProperty} {done : List CuratedProperty}
    (hknown : c.name ∈ done.map CuratedProperty.name) :
    (done.map fun d => if d.name = c.name then c else d).find? (·.name = c.name) = some c := by
  induction done with
  | nil => simp at hknown
  | cons d rest ih =>
      rw [List.map_cons, List.find?_cons]
      by_cases hd : d.name = c.name
      · simp [hd]
      · rw [List.map_cons, List.mem_cons] at hknown
        have hrest := hknown.resolve_left (Ne.symm hd)
        simpa [hd] using ih hrest

private theorem find?_restate (done : List CuratedProperty) (c : CuratedProperty) :
    (restate done c).find? (·.name = name) =
      if c.name = name then some c else done.find? (·.name = name) := by
  have hany : done.any (·.name = c.name) ↔ c.name ∈ done.map CuratedProperty.name := by
    simp
  unfold restate
  by_cases hknown : c.name ∈ done.map CuratedProperty.name
  · rw [if_pos (hany.mpr hknown)]
    by_cases hname : c.name = name
    · rw [if_pos hname, ← hname]
      exact find?_map_self hknown
    · rw [if_neg hname]
      exact find?_map_of_ne hname done
  · rw [if_neg (mt hany.mp hknown), List.find?_append]
    by_cases hname : c.name = name
    · have hnone : done.find? (·.name = name) = none := by
        rw [List.find?_eq_none]
        intro d hd hdn
        exact hknown (List.mem_map.mpr ⟨d, hd, by simpa [hname] using hdn⟩)
      simp [hnone, hname]
    · simp [hname]

private theorem byName_append_singleton (rest : List CuratedProperty) (c : CuratedProperty) :
    byName (rest ++ [c]) = restate (byName rest) c := by
  rw [byName_eq_foldl, byName_eq_foldl, List.foldl_append]
  rfl

/-- Looking a name up among the curated properties that count gives how it is curated last. -/
theorem find?_byName (curated : List CuratedProperty) (name : String) :
    (byName curated).find? (·.name = name) = lastStated? curated name := by
  induction curated using List.reverseRecOn with
  | nil => rfl
  | append_singleton rest c ih =>
      rw [byName_append_singleton, find?_restate, lastStated?_append_singleton, ih]

/-- The curated properties that count stand in the order in which their names first come up. -/
theorem map_name_byName (curated : List CuratedProperty) :
    (byName curated).map CuratedProperty.name = (curated.map CuratedProperty.name).eraseDups := by
  induction curated using List.reverseRecOn with
  | nil => rfl
  | append_singleton rest c ih =>
      rw [byName_append_singleton, map_name_restate, ih, List.map_append, List.map_singleton,
        List.eraseDups_append]
      by_cases hknown : c.name ∈ rest.map CuratedProperty.name
      · have hnone : [c.name].removeAll (rest.map CuratedProperty.name) = [] := by
          simpa [List.removeAll] using hknown
        rw [if_pos (List.mem_eraseDups.mpr hknown), hnone, List.eraseDups_nil, List.append_nil]
      · have hnew : [c.name].removeAll (rest.map CuratedProperty.name) = [c.name] := by
          simpa [List.removeAll] using hknown
        rw [if_neg (mt List.mem_eraseDups.mp hknown), hnew]
        rfl

/-! ## Merging without the table -/

/-- What is pending after some names have been consumed. -/
private def pendingAfter (curated : List CuratedProperty) (names : List String) :
    List CuratedProperty :=
  (byName curated).filter (·.name ∉ names)

private theorem find?_pendingAfter (curated : List CuratedProperty) (names : List String)
    (name : String) :
    (pendingAfter curated names).find? (·.name = name) =
      if name ∈ names then none else lastStated? curated name := by
  rw [pendingAfter, List.find?_filter]
  by_cases hname : name ∈ names
  · rw [if_pos hname, List.find?_eq_none]
    intro c _
    by_cases hc : c.name = name <;> simp [hc, hname]
  · rw [if_neg hname, ← find?_byName]
    congr 1
    funext c
    by_cases hc : c.name = name <;> simp [hc, hname]

private theorem pendingAfter_append_singleton (curated : List CuratedProperty)
    (names : List String) (name : String) :
    pendingAfter curated (names ++ [name]) =
      (pendingAfter curated names).filter (·.name ≠ name) := by
  rw [pendingAfter, pendingAfter, List.filter_filter]
  refine List.filter_congr fun c _ => ?_
  simp [and_comm]

-- The properties before `rest` have consumed what was pending under their names.
private theorem applyAll_pendingAfter (curated : List CuratedProperty)
    (before rest : List Property) :
    (applyAll (pendingAfter curated (before.map Property.name)) rest).1 =
      rest.mapIdx fun i p =>
        match lastStated? curated p.name with
        | some c =>
          if p.name ∈ (before ++ rest.take i).map Property.name then p else p.replacing c
        | none => p := by
  induction rest generalizing before with
  | nil => rfl
  | cons p rest ih =>
      have hlater := ih (before ++ [p])
      rw [List.map_append, List.map_singleton, pendingAfter_append_singleton] at hlater
      simp only [List.append_assoc, List.singleton_append] at hlater
      rw [applyAll, List.mapIdx_cons, List.take_zero, List.append_nil]
      simp only [List.take_succ_cons]
      cases hfound : (pendingAfter curated (before.map Property.name)).find? (·.name = p.name) with
      | none =>
          have hkept : (pendingAfter curated (before.map Property.name)).filter
              (·.name ≠ p.name) = pendingAfter curated (before.map Property.name) := by
            rw [List.filter_eq_self]
            intro c hc
            simpa using List.find?_eq_none.mp hfound c hc
          rw [hkept] at hlater
          rw [find?_pendingAfter] at hfound
          refine congrArg₂ List.cons ?_ hlater
          split_ifs at hfound with hp
          · cases lastStated? curated p.name <;> simp [hp]
          · rw [hfound]
      | some c =>
          refine congrArg₂ List.cons ?_ hlater
          rw [find?_pendingAfter] at hfound
          split_ifs at hfound with hp
          rw [hfound]
          simp only [if_neg hp]
          exact c.apply_eq_replacing p

theorem fst_applyAll_byName (extracted : List Property) (curated : List CuratedProperty) :
    (applyAll (byName curated) extracted).1 = overlaid extracted curated := by
  have hstart : pendingAfter curated (([] : List Property).map Property.name) =
      byName curated := by
    simp [pendingAfter]
  rw [← hstart, applyAll_pendingAfter]
  rfl

private theorem lastStated?_of_mem_byName {c : CuratedProperty} (hc : c ∈ byName curated) :
    lastStated? curated c.name = some c := by
  rw [← find?_byName]
  cases hfound : (byName curated).find? (·.name = c.name) with
  | none => simpa using List.find?_eq_none.mp hfound c hc
  | some d =>
      have hd : d ∈ byName curated := List.mem_of_find?_eq_some hfound
      have hname : d.name = c.name := by simpa using List.find?_some hfound
      rw [List.inj_on_of_nodup_map (nodup_names_byName curated) hd hc hname]

theorem snd_applyAll_byName (extracted : List Property) (curated : List CuratedProperty) :
    (applyAll (byName curated) extracted).2.map CuratedProperty.toProperty =
      added extracted curated := by
  rw [left_applyAll, added, ← map_name_byName, List.filter_map, List.filterMap_map,
    ← List.filterMap_eq_map]
  refine List.filterMap_congr fun c hc => ?_
  have hlast := lastStated?_of_mem_byName (List.mem_of_mem_filter hc)
  simp only [Function.comp_apply, hlast, Option.map_some, c.toProperty_eq_alone]

theorem names_overlaid (extracted : List Property) (curated : List CuratedProperty) :
    (overlaid extracted curated).map Property.name = extracted.map Property.name := by
  rw [← fst_applyAll_byName, map_name_applyAll]

/-- **Merging sorts the overlaid properties and the added ones**. -/
theorem properties_eq (extracted : List Property) (curated : List CuratedProperty) :
    properties extracted curated =
      (overlaid extracted curated ++ added extracted curated).mergeSort
        fun p q => decide (p.listingKey ≤ q.listingKey) := by
  have horder : Property.precedes = fun p q => decide (p.listingKey ≤ q.listingKey) := by
    funext p q
    exact p.precedes_eq_listingKey_le q
  rw [← horder, ← fst_applyAll_byName, ← snd_applyAll_byName]
  rfl

/-! ## How often a name is listed -/

theorem names_added (extracted : List Property) (curated : List CuratedProperty) :
    (added extracted curated).map Property.name =
      (curated.map CuratedProperty.name).eraseDups.filter (· ∉ extracted.map Property.name) := by
  rw [← snd_applyAll_byName, left_applyAll, List.map_map, ← map_name_byName, List.filter_map]
  rfl

theorem count_names_properties (extracted : List Property) (curated : List CuratedProperty)
    (name : String) :
    ((properties extracted curated).map Property.name).count name =
      max ((extracted.map Property.name).count name)
        (if name ∈ curated.map CuratedProperty.name then 1 else 0) := by
  have hsort := (List.mergeSort_perm (overlaid extracted curated ++ added extracted curated)
    fun p q => decide (p.listingKey ≤ q.listingKey)).map Property.name
  rw [properties_eq, hsort.count_eq, List.map_append, List.count_append, names_overlaid,
    names_added]
  have hnodup : (curated.map CuratedProperty.name).eraseDups.Nodup := by
    rw [← map_name_byName]
    exact nodup_names_byName curated
  by_cases hextracted : name ∈ extracted.map Property.name
  · have hnone : name ∉ (curated.map CuratedProperty.name).eraseDups.filter
        (· ∉ extracted.map Property.name) := by
      rw [List.mem_filter]
      intro h
      exact of_decide_eq_true h.2 hextracted
    have hpos := List.count_pos_iff.mpr hextracted
    rw [List.count_eq_zero_of_not_mem hnone]
    split_ifs <;> omega
  · rw [List.count_eq_zero_of_not_mem hextracted, (hnodup.filter _).count]
    simp only [List.mem_filter, List.mem_eraseDups, hextracted, not_false_eq_true, decide_true,
      and_true]
    omega

/-! ## Merging again -/

theorem overlaid_of_nodup (hextracted : (extracted.map Property.name).Nodup)
    (curated : List CuratedProperty) :
    overlaid extracted curated = extracted.map fun p =>
      match lastStated? curated p.name with
      | some c => p.replacing c
      | none => p := by
  have hfirst (i : ℕ) (hi : i < extracted.length) :
      extracted[i].name ∉ (extracted.take i).map Property.name := by
    intro hmem
    obtain ⟨q, hq, hname⟩ := List.mem_map.mp hmem
    obtain ⟨j, hj, rfl⟩ := List.mem_take_iff_getElem.mp hq
    have hj' : j < (extracted.map Property.name).length := by simp; omega
    have hi' : i < (extracted.map Property.name).length := by simpa using hi
    have hnames : (extracted.map Property.name)[j] = (extracted.map Property.name)[i] := by
      simpa using hname
    have hsame : j = i := hextracted.getElem_inj_iff.mp hnames
    omega
  refine List.ext_getElem (by simp [overlaid]) ?_
  intro i hleft hright
  have hi : i < extracted.length := by simpa [overlaid] using hleft
  simp only [overlaid, List.getElem_mapIdx, List.getElem_map, if_neg (hfirst i hi)]

/-- A merged property shows everything that is curated last of its name. -/
theorem replacing_of_mem_properties (hextracted : (extracted.map Property.name).Nodup)
    {p : Property} (hp : p ∈ properties extracted curated) {c : CuratedProperty}
    (hc : lastStated? curated p.name = some c) : p.replacing c = p := by
  rw [properties_eq, List.mem_mergeSort, List.mem_append] at hp
  rcases hp with hp | hp
  · rw [overlaid_of_nodup hextracted] at hp
    obtain ⟨q, -, rfl⟩ := List.mem_map.mp hp
    cases hq : lastStated? curated q.name with
    | none => simp [hq] at hc
    | some d =>
        simp only [hq] at hc ⊢
        have hsame : lastStated? curated q.name = some c := hc
        rw [hq, Option.some.injEq] at hsame
        exact hsame ▸ q.replacing_replacing d
  · obtain ⟨name, -, hentry⟩ := List.mem_filterMap.mp hp
    obtain ⟨d, hd, rfl⟩ := Option.map_eq_some_iff.mp hentry
    have hname : d.alone.name = name := name_of_lastStated? hd
    rw [hname, hd, Option.some.injEq] at hc
    exact hc ▸ d.replacing_alone

/-- Merging the same curated properties once more changes nothing. -/
theorem properties_properties (hextracted : (extracted.map Property.name).Nodup)
    (curated : List CuratedProperty) :
    properties (properties extracted curated) curated = properties extracted curated := by
  have hnodup := nodup_names_properties hextracted curated
  have hnone : added (properties extracted curated) curated = [] := by
    have hknown : ∀ name ∈ (curated.map CuratedProperty.name).eraseDups,
        name ∈ (properties extracted curated).map Property.name := by
      intro name hname
      have hcount := count_names_properties extracted curated name
      rw [if_pos (List.mem_eraseDups.mp hname)] at hcount
      exact List.count_pos_iff.mp (by omega)
    rw [added, List.filter_eq_nil_iff.mpr, List.filterMap_nil]
    intro name hname
    simpa using hknown name hname
  have hsame : overlaid (properties extracted curated) curated =
      properties extracted curated := by
    rw [overlaid_of_nodup hnodup]
    conv_rhs => rw [← List.map_id (properties extracted curated)]
    refine List.map_congr_left fun p hp => ?_
    cases hc : lastStated? curated p.name with
    | none => rfl
    | some c => exact replacing_of_mem_properties hextracted hp hc
  have hsorted : (properties extracted curated).Pairwise fun p q => p.precedes q = true :=
    List.pairwise_mergeSort Property.precedes_trans Property.precedes_total _
  calc properties (properties extracted curated) curated
      = sortProperties (properties extracted curated ++ []) := by
        rw [properties, ← hnone, ← snd_applyAll_byName]
        dsimp only
        rw [fst_applyAll_byName, hsame]
    _ = properties extracted curated := by
        rw [List.append_nil]
        exact List.mergeSort_of_pairwise hsorted

/-- **What merging does.**  The extracted properties, the first of each name replaced where it is
curated, and the curated ones of other names are sorted, required ones first and then by name.  So a
name is listed as often as it was extracted, and once if it is only curated; and if it was extracted
once at most, merging the same curated properties again changes nothing. -/
theorem properties_eq_sort_overlaid_append_added (extracted : List Property)
    (curated : List CuratedProperty) :
    properties extracted curated =
        (overlaid extracted curated ++ added extracted curated).mergeSort
          (fun p q => decide (p.listingKey ≤ q.listingKey)) ∧
      (∀ name, ((properties extracted curated).map Property.name).count name =
        max ((extracted.map Property.name).count name)
          (if name ∈ curated.map CuratedProperty.name then 1 else 0)) ∧
      ((extracted.map Property.name).Nodup →
        properties (properties extracted curated) curated = properties extracted curated) :=
  ⟨properties_eq extracted curated, count_names_properties extracted curated,
    fun hextracted => properties_properties hextracted curated⟩

/-- A name that is curated twice, the second time with an empty type, and one that was never
extracted. -/
theorem properties_properties_restated :
    let extracted : List Property := [⟨"b", "B", false, none, none⟩, ⟨"a", "A", true, none, none⟩]
    let curated : List CuratedProperty :=
      [⟨"b", some "C", none, some "d", none⟩, ⟨"e", none, none, none, none⟩,
        ⟨"b", some "", some true, none, some "0"⟩]
    (extracted.map Property.name).Nodup ∧
    properties extracted curated =
      [⟨"a", "A", true, none, none⟩, ⟨"b", "B", true, none, some "0"⟩,
        ⟨"e", "", false, none, none⟩] ∧
    properties (properties extracted curated) curated = properties extracted curated := by
  intro extracted curated
  have hextracted : (extracted.map Property.name).Nodup := by decide
  refine ⟨hextracted, by cbv, ?_⟩
  exact (properties_eq_sort_overlaid_append_added extracted curated).2.2 hextracted

end Merging

end ComponentDocs
