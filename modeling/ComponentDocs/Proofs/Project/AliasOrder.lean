import ComponentDocs.Proofs.Data.Keys
import ComponentDocs.Proofs.Files.SamePlaces
import ComponentDocs.Project

/-!
# When the order of aliases matters

The aliases of a project stand in a mapping of its compiler configuration, where they have no order
of their own.  A module name is nevertheless looked up under one alias after the other, and the
first that leads anywhere decides.  So the order makes no difference exactly if all aliases that
lead anywhere with that name lead to the same file (`Unambiguous`).

* `moduleFor?_of_reordered`: two configurations that differ only in the order of their aliases open
  projects in which an unambiguous name stands for the same file; any other name stands for another
  file under some order of the same aliases.

The files around may differ as long as they stand at the same places (`SamePlaces`), since a search
only asks where files are.
-/

namespace ComponentDocs

open Source FileSystem

namespace Project

variable {fs gs : FileSystem} {base : Path} {specifier : String} {aliases others : List Alias}

/-! ## Searching under several aliases -/

/-- The file found under one alias. -/
def foundUnder (fs : FileSystem) (base : Path) (specifier : String) (entry : Alias) :
    Except Fault (Option Path) :=
  firstModule fs (entry.bases base specifier)

/-- The file found under several aliases. -/
def foundAmong (fs : FileSystem) (base : Path) (specifier : String) (aliases : List Alias) :
    Except Fault (Option Path) :=
  firstModule fs (aliases.flatMap (Alias.bases base specifier))

/-- An alias leads somewhere: to a file, or to a place that cannot be looked at. -/
def Leads (fs : FileSystem) (base : Path) (specifier : String) (entry : Alias) : Prop :=
  foundUnder fs base specifier entry ≠ .ok none

/-- All aliases that lead anywhere lead to the same file. -/
def Unambiguous (fs : FileSystem) (base : Path) (specifier : String) (aliases : List Alias) :
    Prop :=
  ∀ a ∈ aliases, ∀ b ∈ aliases, Leads fs base specifier a → Leads fs base specifier b →
    foundUnder fs base specifier a = foundUnder fs base specifier b

instance (entry : Alias) : Decidable (Leads fs base specifier entry) :=
  inferInstanceAs (Decidable (_ ≠ _))

instance : Decidable (Unambiguous fs base specifier aliases) :=
  inferInstanceAs (Decidable (∀ a ∈ aliases, ∀ b ∈ aliases, _ → _ → _ = _))

theorem firstModule_append (stems more : List Path) :
    firstModule fs (stems ++ more) = match firstModule fs stems with
      | .ok none => firstModule fs more
      | found => found := by
  induction stems with
  | nil => rfl
  | cons stem rest ih =>
      rw [List.cons_append, firstModule, firstModule]
      cases candidates stem with
      | error e => rfl
      | ok paths =>
          cases hfirst : fs.firstFile paths with
          | error e => simp [bind, Except.bind, hfirst]
          | ok found => cases found <;> simp [bind, Except.bind, pure, Except.pure, hfirst, ih]

theorem foundAmong_cons_of_leads {entry : Alias} (hleads : Leads fs base specifier entry)
    (rest : List Alias) :
    foundAmong fs base specifier (entry :: rest) = foundUnder fs base specifier entry := by
  rw [foundAmong, List.flatMap_cons, firstModule_append, ← foundUnder]
  split
  · next hnone => exact absurd hnone hleads
  · rfl

theorem foundAmong_cons_of_not_leads {entry : Alias} (hleads : ¬ Leads fs base specifier entry)
    (rest : List Alias) :
    foundAmong fs base specifier (entry :: rest) = foundAmong fs base specifier rest := by
  rw [foundAmong, List.flatMap_cons, firstModule_append, ← foundUnder, not_not.mp hleads]
  rfl

/-- What is found under several aliases is found under one of them, or none leads anywhere. -/
theorem foundAmong_cases (fs : FileSystem) (base : Path) (specifier : String)
    (aliases : List Alias) :
    (∃ a ∈ aliases, Leads fs base specifier a ∧
        foundAmong fs base specifier aliases = foundUnder fs base specifier a) ∨
      (∀ a ∈ aliases, ¬ Leads fs base specifier a) ∧
        foundAmong fs base specifier aliases = .ok none := by
  induction aliases with
  | nil => exact .inr ⟨by simp, rfl⟩
  | cons entry rest ih =>
      by_cases hleads : Leads fs base specifier entry
      · exact .inl ⟨entry, List.mem_cons_self, hleads, foundAmong_cons_of_leads hleads rest⟩
      · rw [foundAmong_cons_of_not_leads hleads]
        rcases ih with ⟨a, ha, hfound⟩ | ⟨hnone, hfound⟩
        · exact .inl ⟨a, List.mem_cons_of_mem _ ha, hfound⟩
        · exact .inr ⟨List.forall_mem_cons.mpr ⟨hleads, hnone⟩, hfound⟩

/-- Without ambiguity the order of the aliases makes no difference. -/
theorem foundAmong_of_perm (hperm : others.Perm aliases)
    (hsame : Unambiguous fs base specifier aliases) :
    foundAmong fs base specifier others = foundAmong fs base specifier aliases := by
  rcases foundAmong_cases fs base specifier others with ⟨a, ha, hleads, hfound⟩ | ⟨hnone, hfound⟩
  · have ha := hperm.mem_iff.mp ha
    rcases foundAmong_cases fs base specifier aliases with ⟨b, hb, hother, hlast⟩ | ⟨hnone, -⟩
    · rw [hfound, hlast]
      exact hsame a ha b hb hleads hother
    · exact absurd hleads (hnone a ha)
  · rcases foundAmong_cases fs base specifier aliases with ⟨b, hb, hleads, -⟩ | ⟨-, hlast⟩
    · exact absurd hleads (hnone b (hperm.mem_iff.mpr hb))
    · rw [hfound, hlast]

/-! ## Configurations -/

/-- What stands in a compiler configuration around its aliases. -/
structure Surroundings where
  before : List (Datum × Datum)
  after : List (Datum × Datum)
  optionsBefore : List (Datum × Datum)
  optionsAfter : List (Datum × Datum)

namespace Surroundings

variable (s : Surroundings) (paths : List (Datum × Datum))

/-- The compiler options with the given entries for aliases. -/
def options : List (Datum × Datum) :=
  s.optionsBefore ++ (.text "paths", .mapping paths) :: s.optionsAfter

/-- The compiler configuration with the given entries for aliases. -/
def configuration : Datum :=
  .mapping (s.before ++ (.text "compilerOptions", .mapping (s.options paths)) :: s.after)

end Surroundings

/-- Two configurations differ only in the order of the entries for aliases. -/
inductive Reordered : Datum → Datum → Prop
  | intro (s : Surroundings) {paths others : List (Datum × Datum)} (hperm : others.Perm paths) :
      Reordered (s.configuration paths) (s.configuration others)

/-- The project that a configuration file with some data opens. -/
def opened (fs : FileSystem) (file : Path) (data : Datum) : Project where
  base := (optionsOf fs file.parent (some data)).1
  aliases := (optionsOf fs file.parent (some data)).2

/-- The configuration of a project stands in a file and has some data. -/
structure Configured (fs : FileSystem) (configuration : Option Path) (file : Path) (data : Datum) :
    Prop where
  canonical_eq : fs.canonical (configuration.getD (fs.currentPath.child configurationName)) =
    .ok file
  isFile_eq : fs.isFile file = .ok true
  parses : ∃ cs, fs.readText file = .ok cs ∧ Json.parse? cs = some data

variable {configuration : Option Path} {file : Path} {data other : Datum}

theorem start_of_configured (hconfigured : Configured fs configuration file data) :
    start fs configuration = .ok (opened fs file data) := by
  obtain ⟨cs, htext, hparse⟩ := hconfigured.parses
  rw [start, hconfigured.canonical_eq]
  simp only [bind, Except.bind, hconfigured.isFile_eq, htext, hparse]
  rfl

/-- The directory that compiler options start from. -/
def baseOf (fs : FileSystem) (directory : Path) (options : List (Datum × Datum)) : Path :=
  match Datum.find? (.text "baseUrl") options with
  | some (.text url) => fs.resolve (directory.join (Path.ofString url))
  | _ => directory

theorem opened_of_options {entries options : List (Datum × Datum)}
    (hoptions : Datum.find? (.text "compilerOptions") entries = some (.mapping options)) :
    opened fs file (.mapping entries) =
      { base := baseOf fs file.parent options
        aliases := aliasesOf (Datum.find? (.text "paths") options) } := by
  simp only [opened, optionsOf, hoptions]
  rfl

section Surroundings

variable (s : Surroundings) (paths : List (Datum × Datum))

theorem find?_paths_options :
    Datum.find? (.text "paths") (s.options paths) =
      (Datum.find? (.text "paths") s.optionsBefore).or (some (.mapping paths)) := by
  rw [Surroundings.options, Datum.find?_append_cons, if_pos rfl]

theorem baseOf_options (directory : Path) (others : List (Datum × Datum)) :
    baseOf fs directory (s.options others) = baseOf fs directory (s.options paths) := by
  have hother : "paths" ≠ "baseUrl" := by decide
  simp only [baseOf, Surroundings.options, Datum.find?_append_cons, if_neg hother]

/-- Compiler options count unless others stand in front of them. -/
theorem opened_configuration (hbefore : Datum.find? (.text "compilerOptions") s.before = none) :
    opened fs file (s.configuration paths) =
      { base := baseOf fs file.parent (s.options paths)
        aliases := aliasesOf (Datum.find? (.text "paths") (s.options paths)) } := by
  refine opened_of_options ?_
  rw [Datum.find?_append_cons, hbefore, Option.none_or, if_pos rfl]

end Surroundings

/-- Another order of the aliases changes a project in that order alone. -/
theorem opened_of_reordered (fs : FileSystem) (file : Path) (hreordered : Reordered data other) :
    (opened fs file other).base = (opened fs file data).base ∧
      (opened fs file other).aliases.Perm (opened fs file data).aliases := by
  obtain @⟨s, paths, others, hperm⟩ := hreordered
  cases hbefore : Datum.find? (.text "compilerOptions") s.before with
  | some d =>
      have hsame : opened fs file (s.configuration others) =
          opened fs file (s.configuration paths) := by
        simp only [opened, optionsOf, Surroundings.configuration, Datum.find?_append_cons, hbefore,
          Option.some_or]
      rw [hsame]
      exact ⟨rfl, .refl _⟩
  | none =>
      rw [opened_configuration s paths hbefore, opened_configuration s others hbefore,
        find?_paths_options, find?_paths_options]
      refine ⟨baseOf_options s paths _ others, ?_⟩
      cases Datum.find? (.text "paths") s.optionsBefore with
      | some d => exact .refl _
      | none => exact hperm.filterMap _

/-- A configuration with aliases has the entries for them somewhere in it. -/
theorem exists_surroundings {entry : Alias} (hentry : entry ∈ (opened fs file data).aliases) :
    ∃ (s : Surroundings) (paths : List (Datum × Datum)), data = s.configuration paths ∧
      Datum.find? (.text "compilerOptions") s.before = none ∧
      Datum.find? (.text "paths") s.optionsBefore = none ∧
      entry ∈ aliasesOf (some (.mapping paths)) := by
  cases data with
  | mapping entries =>
      cases hoptions : Datum.find? (.text "compilerOptions") entries with
      | none => simp [opened, optionsOf, hoptions] at hentry
      | some d =>
          cases d with
          | mapping options =>
              rw [opened_of_options hoptions] at hentry
              cases hpaths : Datum.find? (.text "paths") options with
              | none => simp [hpaths, aliasesOf] at hentry
              | some d =>
                  cases d with
                  | mapping paths =>
                      obtain ⟨before, after, rfl, hbefore⟩ := Datum.exists_of_find?_eq_some hoptions
                      obtain ⟨first, last, rfl, hfirst⟩ := Datum.exists_of_find?_eq_some hpaths
                      rw [hpaths] at hentry
                      exact ⟨⟨before, after, first, last⟩, paths, rfl, hbefore, hfirst, hentry⟩
                  | _ => simp [hpaths, aliasesOf] at hentry
          | _ => simp [opened, optionsOf, hoptions] at hentry
  | _ => cases hentry

/-- Some order of the aliases starts with a given one of them. -/
theorem exists_reordered_first {entry : Alias} (hentry : entry ∈ (opened fs file data).aliases) :
    ∃ other rest, Reordered data other ∧
      (opened fs file other).base = (opened fs file data).base ∧
      (opened fs file other).aliases = entry :: rest := by
  obtain ⟨s, paths, rfl, hbefore, hoptions, hentry⟩ := exists_surroundings hentry
  obtain ⟨stated, hstated, hread⟩ := List.mem_filterMap.mp hentry
  obtain ⟨earlier, later, rfl⟩ := List.append_of_mem hstated
  refine ⟨s.configuration (stated :: (earlier ++ later)),
    aliasesOf (some (.mapping (earlier ++ later))), .intro s List.perm_middle.symm, ?_⟩
  rw [opened_configuration s _ hbefore, opened_configuration s _ hbefore, find?_paths_options,
    hoptions, Option.none_or]
  refine ⟨baseOf_options s _ _ _, ?_⟩
  simp only [aliasesOf, List.filterMap_cons, hread]

/-- What a name stands for: seen from the importing file, or found under the aliases. -/
theorem moduleFor?_eq (P : Project) (fs : FileSystem) (importer : ParsedFile)
    (hname : specifier.toList.head? ≠ some '.') :
    P.moduleFor? fs importer specifier = foundAmong fs P.base specifier P.aliases := by
  rw [moduleFor?, moduleStems, if_neg (by simpa using hname), foundAmong]

/-! ## The same configuration elsewhere -/

theorem opened_of_samePlaces (hsame : SamePlaces fs gs) (file : Path) (data : Datum) :
    opened gs file data = opened fs file data := by
  simp only [opened, optionsOf, hsame.resolve_eq]

theorem firstModule_of_samePlaces (hsame : SamePlaces fs gs) (stems : List Path) :
    firstModule gs stems = firstModule fs stems := by
  induction stems with
  | nil => rfl
  | cons stem rest ih =>
      simp only [firstModule, hsame.firstFile_eq, hsame.resolve_eq, ih]

theorem moduleFor?_of_samePlaces (hsame : SamePlaces fs gs) (P : Project) (importer : ParsedFile)
    (specifier : String) :
    P.moduleFor? gs importer specifier = P.moduleFor? fs importer specifier :=
  firstModule_of_samePlaces hsame _

/-! ## Reordered configurations -/

theorem moduleFor?_eq_of_unambiguous (hreordered : Reordered data other) (importer : ParsedFile)
    (hname : specifier.toList.head? ≠ some '.')
    (hunambiguous : Unambiguous fs (opened fs file data).base specifier
      (opened fs file data).aliases) :
    (opened fs file other).moduleFor? fs importer specifier =
      (opened fs file data).moduleFor? fs importer specifier := by
  obtain ⟨hbase, hperm⟩ := opened_of_reordered fs file hreordered
  rw [moduleFor?_eq _ fs importer hname, moduleFor?_eq _ fs importer hname, hbase]
  exact foundAmong_of_perm hperm hunambiguous

/-- If no order makes a difference, all aliases that lead anywhere lead to the same file. -/
theorem unambiguous_of_forall_reordered (importer : ParsedFile)
    (hname : specifier.toList.head? ≠ some '.')
    (hsame : ∀ other, Reordered data other →
      (opened fs file other).moduleFor? fs importer specifier =
        (opened fs file data).moduleFor? fs importer specifier) :
    Unambiguous fs (opened fs file data).base specifier (opened fs file data).aliases := by
  -- an alias that stands first and leads anywhere decides
  have hfirst {a : Alias} (ha : a ∈ (opened fs file data).aliases)
      (hleads : Leads fs (opened fs file data).base specifier a) :
      foundUnder fs (opened fs file data).base specifier a =
        (opened fs file data).moduleFor? fs importer specifier := by
    obtain ⟨other, rest, hreordered, hbase, haliases⟩ := exists_reordered_first ha
    rw [← hsame other hreordered, moduleFor?_eq _ fs importer hname, hbase, haliases,
      foundAmong_cons_of_leads hleads]
  intro a ha b hb hleads hother
  rw [hfirst ha hleads, hfirst hb hother]

/-- **Two configurations that differ only in the order of their aliases open projects in which a
name stands for the same file, if all aliases that lead anywhere with it lead to the same file.**
A name that is no path and for which they do not stands for another file under some order. -/
theorem moduleFor?_of_reordered (hsame : SamePlaces fs gs)
    (hconfigured : Configured fs configuration file data)
    (hother : Configured gs configuration file other) (hreordered : Reordered data other)
    (importer : ParsedFile) (specifier : String) :
    ∃ P Q, start fs configuration = .ok P ∧ start gs configuration = .ok Q ∧
      (specifier.toList.head? = some '.' ∨ Unambiguous fs P.base specifier P.aliases →
        Q.moduleFor? gs importer specifier = P.moduleFor? fs importer specifier) ∧
      (specifier.toList.head? ≠ some '.' → ¬ Unambiguous fs P.base specifier P.aliases →
        ∃ third, Reordered data third ∧
          (opened fs file third).moduleFor? fs importer specifier ≠
            P.moduleFor? fs importer specifier) := by
  refine ⟨opened fs file data, opened fs file other, start_of_configured hconfigured, ?_, ?_, ?_⟩
  · rw [start_of_configured hother, opened_of_samePlaces hsame]
  · intro hcase
    rw [moduleFor?_of_samePlaces hsame]
    by_cases hname : specifier.toList.head? = some '.'
    · rw [moduleFor?, moduleFor?, moduleStems, moduleStems, if_pos (by simpa using hname),
        if_pos (by simpa using hname)]
    · exact moduleFor?_eq_of_unambiguous hreordered importer hname (hcase.resolve_left hname)
  · intro hname hambiguous
    by_contra hnone
    refine hambiguous (unambiguous_of_forall_reordered importer hname fun third hthird => ?_)
    by_contra hdiffer
    exact hnone ⟨third, hthird, hdiffer⟩

/-! ## Two aliases -/

/-- A configuration with two aliases, each with one target. -/
def twoAliases (first second : String × String) : Datum :=
  (⟨[], [], [], []⟩ : Surroundings).configuration
    [(.text first.1, .list [.text first.2]), (.text second.1, .list [.text second.2])]

theorem twoAliases_reordered (first second : String × String) :
    Reordered (twoAliases first second) (twoAliases second first) := .intro _ (.swap ..)

/-- Files at three places, beside a configuration. -/
def threePlaces (text : String) : FileSystem where
  top := .directory 0 [(configurationName, .file (Text.bytesOf text) 0),
    ("a", .directory 0 [("y.ts", .file [] 0), ("x", .directory 0 [("y.ts", .file [] 0)])]),
    ("b", .directory 0 [("y.ts", .file [] 0)])]
  current := []
  home := []

/-- The path of the configuration. -/
def threePlacesFile : Path := ⟨.root, [configurationName]⟩

theorem configured_threePlaces {text : String}
    (htext : Text.readText? (Text.bytesOf text) = some text.toList)
    (hparse : Json.parse? text.toList = some data) :
    Configured (threePlaces text) none threePlacesFile data where
  canonical_eq := rfl
  isFile_eq := rfl
  parses := by
    have hread : (threePlaces text).read threePlacesFile = .ok (Text.bytesOf text) := rfl
    exact ⟨_, by simp only [FileSystem.readText, hread, htext], hparse⟩

theorem samePlaces_threePlaces (text other : String) :
    SamePlaces (threePlaces text) (threePlaces other) :=
  samePlaces_write (p := threePlacesFile) rfl (Text.bytesOf other) 0

/-- An alias that leads nowhere may stand in front of another one or behind it. -/
theorem scattered_moduleFor? :
    let fs := threePlaces
      "\x7b\"compilerOptions\":\x7b\"paths\":\x7b\"@/*\":[\"a/*\"],\"~/*\":[\"b/*\"]\x7d\x7d\x7d"
    let gs := threePlaces
      "\x7b\"compilerOptions\":\x7b\"paths\":\x7b\"~/*\":[\"b/*\"],\"@/*\":[\"a/*\"]\x7d\x7d\x7d"
    let data := twoAliases ("@/*", "a/*") ("~/*", "b/*")
    let other := twoAliases ("~/*", "b/*") ("@/*", "a/*")
    let importer := ParsedFile.ofSource ⟨.root, ["T.ts"]⟩ []
    Configured fs none threePlacesFile data ∧ Configured gs none threePlacesFile other ∧
      ∃ P Q, start fs none = .ok P ∧ start gs none = .ok Q ∧
        Q.moduleFor? gs importer "@/y" = P.moduleFor? fs importer "@/y" := by
  intro fs gs data other importer
  have hdata : Configured fs none threePlacesFile data :=
    configured_threePlaces (by decide +kernel) (by cbv)
  have hother : Configured gs none threePlacesFile other :=
    configured_threePlaces (by decide +kernel) (by cbv)
  obtain ⟨P, Q, hP, hQ, hsame, -⟩ := moduleFor?_of_reordered (samePlaces_threePlaces _ _) hdata
    hother (twoAliases_reordered _ _) importer "@/y"
  refine ⟨hdata, hother, P, Q, hP, hQ, hsame (.inr ?_)⟩
  obtain rfl := Except.ok.inj ((start_of_configured hdata).symm.trans hP)
  decide +kernel

/-- A wide alias decides before a narrower one behind it. -/
theorem overlapping_differs :
    let fs := threePlaces
      "\x7b\"compilerOptions\":\x7b\"paths\":\x7b\"@/*\":[\"a/*\"],\"@/x/*\":[\"b/*\"]\x7d\x7d\x7d"
    let gs := threePlaces
      "\x7b\"compilerOptions\":\x7b\"paths\":\x7b\"@/x/*\":[\"b/*\"],\"@/*\":[\"a/*\"]\x7d\x7d\x7d"
    let wideFirst := twoAliases ("@/*", "a/*") ("@/x/*", "b/*")
    let narrowFirst := twoAliases ("@/x/*", "b/*") ("@/*", "a/*")
    let importer := ParsedFile.ofSource ⟨.root, ["T.ts"]⟩ []
    Reordered wideFirst narrowFirst ∧ Configured fs none threePlacesFile wideFirst ∧
      Configured gs none threePlacesFile narrowFirst ∧
      ∃ P Q, start fs none = .ok P ∧ start gs none = .ok Q ∧
        P.moduleFor? fs importer "@/x/y" = .ok (some ⟨.root, ["a", "x", "y.ts"]⟩) ∧
        Q.moduleFor? gs importer "@/x/y" = .ok (some ⟨.root, ["b", "y.ts"]⟩) := by
  intro fs gs wideFirst narrowFirst importer
  have hwide : Configured fs none threePlacesFile wideFirst :=
    configured_threePlaces (by decide +kernel) (by cbv)
  have hnarrow : Configured gs none threePlacesFile narrowFirst :=
    configured_threePlaces (by decide +kernel) (by cbv)
  exact ⟨twoAliases_reordered _ _, hwide, hnarrow, _, _, start_of_configured hwide,
    start_of_configured hnarrow, by decide +kernel, by decide +kernel⟩

end Project

end ComponentDocs
