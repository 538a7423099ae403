import Mathlib.Data.List.Basic
import Mathlib.Data.List.Nodup
import ComponentDocs.Extraction.Members

/-!
# The first property of each name

`firstOfEachName` keeps of several properties the first one of each name.  A property is kept if
and only if it is the one found under its name (`mem_firstOfEachName`), and properties that are
left out at one place of a list may as well be left out earlier
(`firstOfEachName_append_firstOfEachName`), so that keeping the first of each name part by part
comes to the same as doing so once.
-/

namespace ComponentDocs.Extraction

/-- The properties less those with a name among the given ones. -/
private def without (names : List Property) (ps : List Property) : List Property :=
  ps.filter fun p => !names.any (·.name = p.name)

/-! ## One property after another -/

private theorem foldl_eq_append_without (ps kept : List Property) :
    ps.foldl (fun done p => if done.any (·.name = p.name) then done else done ++ [p]) kept =
      kept ++ without kept (firstOfEachName ps) := by
  induction ps generalizing kept with
  | nil => simp [without, firstOfEachName]
  | cons p rest ih =>
      have hfirst : firstOfEachName (p :: rest) = p :: without [p] (firstOfEachName rest) :=
        ih [p]
      rw [List.foldl_cons, ih, hfirst]
      by_cases hp : kept.any (·.name = p.name)
      · rw [if_pos hp]
        simp only [without, List.filter_cons, hp, Bool.not_true, Bool.false_eq_true, if_false,
          List.filter_filter]
        congr 1
        refine List.filter_congr fun q _ => ?_
        -- what has the name of `p` is left out on account of `kept` already
        by_cases hq : p.name = q.name <;> simp_all
      · rw [if_neg hp]
        simp only [without, List.filter_cons, hp, Bool.not_false, if_true, List.filter_filter,
          List.append_assoc, List.singleton_append]
        congr 2
        refine List.filter_congr fun q _ => ?_
        simp [Bool.and_comm]

@[simp] theorem firstOfEachName_nil : firstOfEachName [] = [] := rfl

theorem firstOfEachName_cons (p : Property) (rest : List Property) :
    firstOfEachName (p :: rest) =
      p :: (firstOfEachName rest).filter fun q => decide (q.name ≠ p.name) := by
  have hfold := foldl_eq_append_without rest [p]
  simp only [without, List.singleton_append, List.any_cons, List.any_nil, Bool.or_false] at hfold
  refine Eq.trans hfold (congrArg _ (List.filter_congr fun q _ => ?_))
  simp [eq_comm]

/-! ## What is kept -/

/-- **A property is kept if and only if it is the first one of its name.** -/
theorem mem_firstOfEachName {p : Property} {ps : List Property} :
    p ∈ firstOfEachName ps ↔ ps.find? (·.name = p.name) = some p := by
  induction ps with
  | nil => simp
  | cons first rest ih =>
      rw [firstOfEachName_cons, List.mem_cons, List.mem_filter, ih, List.find?_cons]
      by_cases hname : first.name = p.name
      · simp [hname, eq_comm]
      · have hne : p ≠ first := fun heq => hname (heq ▸ rfl)
        simp [hname, hne, Ne.symm hname]

theorem mem_of_mem_firstOfEachName {p : Property} {ps : List Property}
    (hp : p ∈ firstOfEachName ps) : p ∈ ps :=
  List.mem_of_find?_eq_some (mem_firstOfEachName.mp hp)

/-- No name is kept twice. -/
theorem nodup_names_firstOfEachName (ps : List Property) :
    ((firstOfEachName ps).map Property.name).Nodup := by
  induction ps with
  | nil => exact List.nodup_nil
  | cons p rest ih =>
      rw [firstOfEachName_cons, List.map_cons, List.nodup_cons]
      refine ⟨by simp, ih.sublist (List.filter_sublist.map _)⟩

/-- Of each name something is kept. -/
theorem exists_mem_firstOfEachName {p : Property} {ps : List Property} (hp : p ∈ ps) :
    ∃ q ∈ firstOfEachName ps, q.name = p.name := by
  cases hfind : ps.find? (·.name = p.name) with
  | none => simpa using List.find?_eq_none.mp hfind p hp
  | some q =>
      have hname : q.name = p.name := by simpa using List.find?_some hfind
      exact ⟨q, mem_firstOfEachName.mpr (by rw [hname]; exact hfind), hname⟩

theorem mem_names_firstOfEachName {ps : List Property} {name : String} :
    name ∈ (firstOfEachName ps).map Property.name ↔ name ∈ ps.map Property.name := by
  simp only [List.mem_map]
  constructor
  · rintro ⟨p, hp, rfl⟩
    exact ⟨p, mem_of_mem_firstOfEachName hp, rfl⟩
  · rintro ⟨p, hp, rfl⟩
    exact exists_mem_firstOfEachName hp

/-! ## Keeping part by part -/

/-- Properties with different names are all kept. -/
theorem firstOfEachName_of_nodup {ps : List Property} (hps : (ps.map Property.name).Nodup) :
    firstOfEachName ps = ps := by
  induction ps with
  | nil => rfl
  | cons p rest ih =>
      rw [List.map_cons, List.nodup_cons] at hps
      rw [firstOfEachName_cons, ih hps.2, List.filter_eq_self.mpr]
      intro q hq
      have hne : q.name ≠ p.name := fun heq => hps.1 (heq ▸ List.mem_map_of_mem hq)
      simpa using hne

@[simp] theorem firstOfEachName_firstOfEachName (ps : List Property) :
    firstOfEachName (firstOfEachName ps) = firstOfEachName ps :=
  firstOfEachName_of_nodup (nodup_names_firstOfEachName ps)

private theorem firstOfEachName_append (ps qs : List Property) :
    firstOfEachName (ps ++ qs) =
      firstOfEachName ps ++ without (firstOfEachName ps) (firstOfEachName qs) := by
  rw [← foldl_eq_append_without]
  exact List.foldl_append

/-- Properties that have come up before add nothing. -/
theorem firstOfEachName_append_of_subset {ps qs : List Property} (hsubset : qs ⊆ ps) :
    firstOfEachName (ps ++ qs) = firstOfEachName ps := by
  have hnone : without (firstOfEachName ps) (firstOfEachName qs) = [] := by
    refine List.filter_eq_nil_iff.mpr fun q hq => ?_
    obtain ⟨p, hp, hname⟩ :=
      exists_mem_firstOfEachName (hsubset (mem_of_mem_firstOfEachName hq))
    have hany : (firstOfEachName ps).any (·.name = q.name) :=
      List.any_eq_true.mpr ⟨p, hp, by simpa using hname⟩
    simp [hany]
  rw [firstOfEachName_append, hnone, List.append_nil]

/-- What is left out of the rest of a list may be left out before. -/
theorem firstOfEachName_append_firstOfEachName (ps qs : List Property) :
    firstOfEachName (ps ++ firstOfEachName qs) = firstOfEachName (ps ++ qs) := by
  rw [firstOfEachName_append, firstOfEachName_append, firstOfEachName_firstOfEachName]

theorem firstOfEachName_firstOfEachName_append (ps qs : List Property) :
    firstOfEachName (firstOfEachName ps ++ qs) = firstOfEachName (ps ++ qs) := by
  rw [firstOfEachName_append, firstOfEachName_append, firstOfEachName_firstOfEachName]

end ComponentDocs.Extraction
