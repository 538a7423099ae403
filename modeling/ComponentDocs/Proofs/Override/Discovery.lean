import Mathlib.Data.List.Induction
import Mathlib.Data.String.Basic
import ComponentDocs.Override.Discovery

/-!
# Which providers are found

Names of providers are compared in lower case.  A name stands for the built-in provider of that name
if there is one, and otherwise for the first plugin of that name (`meaning?`).  If all names that
are asked for stand for something, each of them gives one provider, where it is asked for first;
otherwise the others are reported, and no provider is made (`providers_by_name`).

To say what is made on the way, `making` finds providers with a list kept of the names for which one
is made.
-/

namespace ComponentDocs

/-- A plugin that turns out to be a provider. -/
def Plugin.providing {α : Type} (entry : String × α) : Plugin α :=
  ⟨entry.1, .ok (.provider entry.2)⟩

namespace Discovery

variable {α : Type} {found : List (String × PluginContent α)}

/-- The built-in providers under their names. -/
def builtIns (provider : OverrideFormat → α) : List (String × α) :=
  OverrideFormat.all.map fun format => (format.name, provider format)

/-- What a name in lower case stands for. -/
def meaning? (provider : OverrideFormat → α) (plugins : List (String × α)) (name : String) :
    Option α :=
  ((OverrideFormat.all.find? fun format => Text.lowered format.name = name).map provider).or
    ((plugins.find? fun plugin => Text.lowered plugin.1 = name).map Prod.snd)

/-- The second list holds what occurs in the first one, in the order of the first occurrences. -/
structure FirstOccurrences (names distinct : List String) : Prop where
  mem_iff : ∀ name, name ∈ distinct ↔ name ∈ names
  ordered : distinct.Pairwise fun a b => names.idxOf a < names.idxOf b

/-! ## What is made on the way -/

/-- The providers of several names, made one after the other, and the names for which one has been
made. -/
def makeAll (found : List (String × PluginContent α)) :
    List String → List String × Except DiscoveryProblem (List α)
  | [] => ([], .ok [])
  | name :: rest =>
    match provide found name with
    | .error e => ([name], .error e)
    | .ok p => (name :: (makeAll found rest).1, (makeAll found rest).2.map (p :: ·))

/-- `providers` with the names for which a provider is made. -/
def making (builtIn : List (String × α)) (plugins : List (Plugin α))
    (enabled : Option (List String)) : List String × Except DiscoveryProblem (List α) :=
  match known (builtIn.map fun (name, p) => (name, .provider p)) plugins with
  | .error e => ([], .error e)
  | .ok found =>
    let names := match enabled with
      | some names => names.map Text.lowered
      | none => builtIn.map Prod.fst
    let missing := names.filter fun name => (found.lookup name).isNone
    if missing.isEmpty then makeAll found names.eraseDups else ([], .error (.unknown missing))

theorem makeAll_snd (names : List String) :
    (makeAll found names).2 = names.mapM (provide found) := by
  induction names with
  | nil => rfl
  | cons name rest ih =>
      rw [makeAll, List.mapM_cons]
      cases hname : provide found name with
      | error e => rfl
      | ok p =>
          simp only [ih]
          cases rest.mapM (provide found) <;> rfl

/-- Keeping the list makes no difference to what is found. -/
theorem making_snd (builtIn : List (String × α)) (plugins : List (Plugin α))
    (enabled : Option (List String)) :
    (making builtIn plugins enabled).2 = providers builtIn plugins enabled := by
  unfold making providers
  cases known (builtIn.map fun (name, p) => (name, PluginContent.provider p)) plugins with
  | error e => rfl
  | ok found =>
      simp only [bind, Except.bind]
      generalize hmissing : List.filter _ _ = missing
      cases missing with
      | nil => exact makeAll_snd _
      | cons name rest => rfl

theorem makeAll_of_map {names : List String} {made : List α}
    (hmade : names.map (provide found) = made.map .ok) :
    makeAll found names = (names, .ok made) := by
  induction names generalizing made with
  | nil => cases made <;> simp_all [makeAll]
  | cons name rest ih =>
      cases made with
      | nil => simp at hmade
      | cons p more =>
          rw [List.map_cons, List.map_cons, List.cons.injEq] at hmade
          simp only [makeAll, hmade.1, ih hmade.2]
          rfl

/-! ## What names stand for -/

/-- A plugin adds its name unless that is known already. -/
theorem exists_known (found : List (String × PluginContent α)) (plugins : List (String × α)) :
    ∃ all, known found (plugins.map Plugin.providing) = .ok all ∧
      ∀ name, all.lookup name = (found.lookup name).or
        ((plugins.find? fun plugin => Text.lowered plugin.1 = name).map fun plugin =>
          .provider plugin.2) := by
  induction plugins generalizing found with
  | nil => exact ⟨found, rfl, by simp⟩
  | cons plugin rest ih =>
      rw [List.map_cons, known]
      by_cases hknown : (found.lookup (Text.lowered plugin.1)).isSome
      · obtain ⟨all, hall, hlookup⟩ := ih found
        refine ⟨all, by simpa [Plugin.providing, hknown] using hall, fun name => ?_⟩
        rw [hlookup]
        by_cases hname : Text.lowered plugin.1 = name
        · obtain ⟨content, hcontent⟩ := Option.isSome_iff_exists.mp hknown
          rw [← hname, hcontent, Option.some_or, Option.some_or]
        · rw [List.find?_cons_of_neg (by simpa using hname)]
      · obtain ⟨all, hall, hlookup⟩ :=
          ih (found ++ [(Text.lowered plugin.1, .provider plugin.2)])
        refine ⟨all, by simpa [Plugin.providing, hknown] using hall, fun name => ?_⟩
        rw [hlookup, List.lookup_append, Option.or_assoc]
        by_cases hname : Text.lowered plugin.1 = name
        · simp [hname]
        · simp [hname, List.lookup_cons, beq_false_of_ne (Ne.symm hname)]

theorem lowered_name (format : OverrideFormat) : Text.lowered format.name = format.name := by
  cases format <;> decide +kernel

theorem lookup_builtIns (provider : OverrideFormat → α) (name : String) :
    ((builtIns provider).map fun (name, p) => (name, PluginContent.provider p)).lookup name =
      (OverrideFormat.all.find? fun format => Text.lowered format.name = name).map fun format =>
        .provider (provider format) := by
  simp only [builtIns, lowered_name]
  induction OverrideFormat.all with
  | nil => rfl
  | cons format rest ih =>
      by_cases hname : format.name = name
      · simp [hname]
      · rw [List.map_cons, List.map_cons, List.lookup_cons,
          List.find?_cons_of_neg (by simpa using hname), ← ih, beq_false_of_ne (Ne.symm hname)]

theorem meaning?_name (provider : OverrideFormat → α) (plugins : List (String × α))
    (format : OverrideFormat) :
    meaning? provider plugins format.name = some (provider format) := by
  simp only [meaning?, lowered_name]
  cases format <;> simp [OverrideFormat.all, OverrideFormat.name]

/-- **A name stands for the built-in provider of that name, or else for the first plugin.** -/
theorem exists_known_builtIns (provider : OverrideFormat → α) (plugins : List (String × α)) :
    ∃ all, known ((builtIns provider).map fun (name, p) => (name, .provider p))
        (plugins.map Plugin.providing) = .ok all ∧
      ∀ name, all.lookup name = (meaning? provider plugins name).map .provider := by
  obtain ⟨all, hall, hlookup⟩ := exists_known
    ((builtIns provider).map fun (name, p) => (name, .provider p)) plugins
  refine ⟨all, hall, fun name => ?_⟩
  rw [hlookup, lookup_builtIns, meaning?, Option.map_or, Option.map_map, Option.map_map]
  rfl

/-- Names that stand for something give what they stand for. -/
theorem makeAll_of_meaning {provider : OverrideFormat → α} {plugins : List (String × α)}
    {names : List String}
    (hlookup : ∀ name, found.lookup name = (meaning? provider plugins name).map .provider)
    (hnames : ∀ name ∈ names, (meaning? provider plugins name).isSome) :
    let made := names.filterMap (meaning? provider plugins)
    made.map some = names.map (meaning? provider plugins) ∧
      makeAll found names = (names, .ok made) := by
  intro made
  have hmade : made.map some = names.map (meaning? provider plugins) := by
    rw [List.map_filterMap_some_eq_filter_map_isSome, List.filter_eq_self, List.forall_mem_map]
    exact hnames
  refine ⟨hmade, makeAll_of_map ?_⟩
  -- providing a name is turning what it stands for into a result
  have hprovide : ∀ name ∈ names, provide found name =
      (meaning? provider plugins name).elim (.error .notProvider) .ok := by
    intro name hname
    obtain ⟨p, hp⟩ := Option.isSome_iff_exists.mp (hnames name hname)
    rw [provide, hlookup, hp]
    rfl
  calc names.map (provide found)
      = (names.map (meaning? provider plugins)).map
          fun meaning => meaning.elim (.error .notProvider) .ok := by
        rw [List.map_map]
        exact List.map_congr_left hprovide
    _ = made.map .ok := by
        rw [← hmade, List.map_map]
        rfl

/-! ## Names asked for more than once -/

theorem firstOccurrences_eraseDups (names : List String) :
    FirstOccurrences names names.eraseDups where
  mem_iff name := List.mem_eraseDups
  ordered := by
    induction names using List.reverseRecOn with
    | nil => exact List.Pairwise.nil
    | append_singleton names last ih =>
        rw [List.eraseDups_append, List.pairwise_append]
        refine ⟨ih.imp_of_mem fun {a b} ha hb hlt => ?_, ?_, fun a ha b hb => ?_⟩
        · rw [List.idxOf_append_of_mem (List.mem_eraseDups.mp ha),
            List.idxOf_append_of_mem (List.mem_eraseDups.mp hb)]
          exact hlt
        · by_cases hlast : last ∈ names <;> simp [List.removeAll, hlast, List.eraseDups_cons]
        · -- the last name counts only if it is none of those before
          have hnew : b ∉ names := by
            have hlast : b = last ∧ b ∉ names := by
              simpa [List.removeAll] using List.mem_eraseDups.mp hb
            exact hlast.2
          rw [List.idxOf_append_of_mem (List.mem_eraseDups.mp ha),
            List.idxOf_append_of_notMem hnew]
          exact Nat.lt_add_right _ (List.idxOf_lt_length_of_mem (List.mem_eraseDups.mp ha))

theorem pairwise_sorted (names : List String) :
    (names.mergeSort (· ≤ ·)).Pairwise (· ≤ ·) := by
  have htrans : ∀ a b c : String, decide (a ≤ b) = true → decide (b ≤ c) = true →
      decide (a ≤ c) = true := fun a b c hab hbc =>
    decide_eq_true (le_trans (of_decide_eq_true hab) (of_decide_eq_true hbc))
  have htotal : ∀ a b : String, (decide (a ≤ b) || decide (b ≤ a)) = true := fun a b => by
    simpa only [Bool.or_eq_true, decide_eq_true_eq] using le_total a b
  exact (List.pairwise_mergeSort htrans htotal names).imp of_decide_eq_true

/-! ## What is found -/

/-- **Which providers are found.**  Each name that is asked for stands, in lower case, for the
built-in provider of that name or else for the first plugin.  If all of them stand for something,
there is one provider for each name, where it is asked for first, and no other is made.  If some do
not, just these are reported, sorted and as often as they are asked for, and none is made.  If
nothing is asked for, there are the built-in providers alone, whatever plugins there are. -/
theorem providers_by_name (provider : OverrideFormat → α) (plugins : List (String × α))
    (enabled : List String) :
    let builtIn := builtIns provider
    let installed := plugins.map Plugin.providing
    let names := enabled.map Text.lowered
    let unresolved := names.filter fun name => (meaning? provider plugins name).isNone
    let made := (making builtIn installed (some enabled)).1
    (∀ asked, (making builtIn installed asked).2 = providers builtIn installed asked) ∧
    (unresolved = [] → ∃ distinct found, FirstOccurrences names distinct ∧
      found.map some = distinct.map (meaning? provider plugins) ∧
      providers builtIn installed (some enabled) = .ok found ∧ made = distinct) ∧
    (unresolved ≠ [] → ∃ listed, listed.Perm unresolved ∧ listed.Pairwise (· ≤ ·) ∧
      (DiscoveryProblem.unknown unresolved).message =
        "Unknown override providers requested: " ++ ", ".intercalate listed ∧
      providers builtIn installed (some enabled) = .error (.unknown unresolved) ∧ made = []) ∧
    providers builtIn installed none = .ok (OverrideFormat.all.map provider) := by
  intro builtIn installed names unresolved made
  obtain ⟨all, hall, hlookup⟩ := exists_known_builtIns provider plugins
  have hmissing : (names.filter fun name => (all.lookup name).isNone) = unresolved :=
    List.filter_congr fun name _ => by rw [hlookup, Option.isNone_map]
  have hmaking : making builtIn installed (some enabled) =
      if unresolved.isEmpty then makeAll all names.eraseDups
      else ([], .error (.unknown unresolved)) := by
    rw [making, hall, ← hmissing]
  refine ⟨making_snd builtIn installed, fun hnone => ?_, fun hsome => ?_, ?_⟩
  · have hmeaning : ∀ name ∈ names.eraseDups, (meaning? provider plugins name).isSome := by
      intro name hname
      have hkept := List.filter_eq_nil_iff.mp hnone name (List.mem_eraseDups.mp hname)
      simpa [Option.isSome_iff_ne_none] using hkept
    have hmade := makeAll_of_meaning hlookup hmeaning
    rw [hnone, List.isEmpty_nil, if_pos rfl, hmade.2] at hmaking
    exact ⟨_, _, firstOccurrences_eraseDups names, hmade.1,
      (making_snd builtIn installed _).symm.trans (congrArg Prod.snd hmaking),
      congrArg Prod.fst hmaking⟩
  · rw [if_neg (by simpa using hsome)] at hmaking
    refine ⟨_, List.mergeSort_perm unresolved _, ?_, rfl,
      (making_snd builtIn installed _).symm.trans (congrArg Prod.snd hmaking),
      congrArg Prod.fst hmaking⟩
    exact pairwise_sorted unresolved
  · have hnames : builtIn.map Prod.fst = OverrideFormat.all.map OverrideFormat.name := rfl
    have hmeaning : ∀ name ∈ builtIn.map Prod.fst, (meaning? provider plugins name).isSome := by
      simp [hnames, meaning?_name]
    have hmade := (makeAll_of_meaning hlookup hmeaning).2
    have hknown : ((builtIn.map Prod.fst).filter fun name => (all.lookup name).isNone) = [] := by
      simp [hnames, hlookup, meaning?_name]
    have hdistinct : (builtIn.map Prod.fst).eraseDups = builtIn.map Prod.fst := by
      rw [hnames]
      decide
    rw [← making_snd, making, hall]
    dsimp only
    rw [hknown, List.isEmpty_nil, if_pos rfl, hdistinct, hmade, hnames, List.filterMap_map]
    simp only [Function.comp_def, meaning?_name, List.filterMap_eq_map']

end Discovery

end ComponentDocs
