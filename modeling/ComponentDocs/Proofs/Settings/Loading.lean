import Mathlib.Data.List.Basic
import ComponentDocs.Proofs.Yaml.Defects
import ComponentDocs.Settings

/-!
# What loading settings promises

Whoever loads the settings of a project expects settings that can be worked with, or a refusal that
says what is wrong with the file (`Promised`).  Bytes, YAML and the pattern that the file states
have faults of their own, and three kinds of them are not turned into refusals: bytes that are no
text, a YAML text with a scalar or an escape without a value, and a pattern with another problem
than being malformed (`Slip`).

* `settings_promised_iff`: for any bytes of a settings file, loading keeps its promise if and only
  if none of the three occurs, and where one does, loading fails with just that.

The entries of the file never break the promise apart from the pattern: what does not fit under the
other keys is left out (`ofEntries_of_ok`).
-/

namespace ComponentDocs

/-- A problem is a refusal: it says what is wrong with the settings file. -/
def SettingsProblem.IsRefusal : SettingsProblem → Prop
  | .malformed _ | .notMapping | .pattern _ .malformed => True
  | .path _ | .value _ | .pattern .. => False

namespace Settings

/-- A result that loading promises: settings whose pattern can be used, or a refusal. -/
inductive Promised (names : CharacterNames) : Except SettingsProblem Settings → Prop
  | loaded {settings : Settings} {pattern : NamePattern}
      (hpattern : NamePattern.parse names settings.filePattern = .ok pattern) :
      Promised names (.ok settings)
  | refused {problem : SettingsProblem} (hrefusal : problem.IsRefusal) :
      Promised names (.error problem)

/-- A fault in the bytes of a settings file that no stage of loading turns into a refusal. -/
inductive Slip (names : CharacterNames) (file : Path) (bytes : List UInt8) : SettingsProblem → Prop
  | notText (htext : Text.readText? bytes = none) : Slip names file bytes (.path (.notText file))
  | value {cs : List Char} {p : Yaml.Problem} (htext : Text.readText? bytes = some cs)
      (hblank : ¬ (Text.trim cs).isEmpty) (hdefect : Yaml.Defect cs p) :
      Slip names file bytes (.value p)
  | pattern {cs : List Char} {stated : List (Datum × Datum)} {text : String} {p : PatternProblem}
      (htext : Text.readText? bytes = some cs) (hblank : ¬ (Text.trim cs).isEmpty)
      (hparse : Yaml.parse cs = .ok (.mapping stated))
      (hstated : nonEmpty? (Datum.find? (.text "file_pattern") stated) = some text)
      (hpattern : NamePattern.parse names text = .error p) (hform : p ≠ .malformed) :
      Slip names file bytes (.pattern text p)

variable {names : CharacterNames} {fs : FileSystem} {path file root : Path} {bytes : List UInt8}
  {cs : List Char} {stated : List (Datum × Datum)} {problem : SettingsProblem} {text : String}

theorem isRefusal_pattern_iff {p : PatternProblem} :
    (SettingsProblem.pattern text p).IsRefusal ↔ p = .malformed := by
  cases p <;> simp [SettingsProblem.IsRefusal]

theorem Slip.not_isRefusal (hslip : Slip names file bytes problem) : ¬ problem.IsRefusal := by
  cases hslip with
  | notText => exact id
  | value => exact id
  | pattern _ _ _ _ _ hform => exact fun hrefusal => hform (isRefusal_pattern_iff.mp hrefusal)

/-! ## Entries -/

section Usual

open PatternReader

/-- The usual pattern is well-formed. -/
theorem exists_parse_defaultPattern (names : CharacterNames) :
    ∃ pattern, NamePattern.parse names ComponentFiles.defaultPattern = .ok pattern := by
  have htokens : PatternToken.ofText ComponentFiles.defaultPattern.toList =
      [.escaped '.', .plain 't', .plain 's', .plain 'x', .plain '?', .plain '$'] := by
    decide +kernel
  have hok : (NamePattern.parse names ComponentFiles.defaultPattern).isOk := by
    -- the units are read one by one, none of them by a name
    simp [NamePattern.parse, htokens, readOn, step, next, escape, number?, controlEscapes,
      kindEscapes, markEscapes, List.lookup_cons, add, repetition, repeatLast, isRepeatable, manner,
      accepts, single, PatternLevel.regex, PatternLevel.choice, PatternLevel.row,
      Regex.looksBackFar]
    rfl
  cases hparse : NamePattern.parse names ComponentFiles.defaultPattern with
  | ok pattern => exact ⟨pattern, rfl⟩
  | error e =>
      rw [hparse] at hok
      cases hok

end Usual

theorem ofEntries_of_error (hpattern : patternOf names stated = .error problem) :
    ofEntries names root stated = .error problem := by
  rw [ofEntries, hpattern]
  rfl

/-- Whatever stands under the other keys, entries with a good pattern are loaded. -/
theorem ofEntries_of_ok (hpattern : patternOf names stated = .ok text) :
    ∃ settings, ofEntries names root stated = .ok settings ∧ settings.filePattern = text := by
  rw [ofEntries, hpattern]
  exact ⟨_, rfl, rfl⟩

/-- Entries with a pattern that has a problem come to nothing but that. -/
theorem ofEntries_of_parse_error {p : PatternProblem}
    (hstated : nonEmpty? (Datum.find? (.text "file_pattern") stated) = some text)
    (hparse : NamePattern.parse names text = .error p) :
    ofEntries names root stated = .error (.pattern text p) :=
  ofEntries_of_error (by simp only [patternOf, hstated, hparse])

theorem promised_ofEntries (root : Path)
    (hform : ∀ text p, nonEmpty? (Datum.find? (.text "file_pattern") stated) = some text →
      NamePattern.parse names text = .error p → p = .malformed) :
    Promised names (ofEntries names root stated) := by
  cases hstated : nonEmpty? (Datum.find? (.text "file_pattern") stated) with
  | none =>
      have husual : patternOf names stated = .ok ComponentFiles.defaultPattern := by
        simp only [patternOf, hstated]
      obtain ⟨settings, hload, hpattern⟩ := ofEntries_of_ok husual
      rw [hload]
      obtain ⟨pattern, hparse⟩ := exists_parse_defaultPattern names
      exact .loaded (hpattern ▸ hparse)
  | some text =>
      cases hparse : NamePattern.parse names text with
      | ok pattern =>
          have hgood : patternOf names stated = .ok text := by
            simp only [patternOf, hstated, hparse]
          obtain ⟨settings, hload, hpattern⟩ := ofEntries_of_ok hgood
          rw [hload]
          exact .loaded (hpattern ▸ hparse)
      | error p =>
          rw [ofEntries_of_parse_error hstated hparse]
          exact .refused (isRefusal_pattern_iff.mpr (hform text p hstated hparse))

/-- Without entries all is as usual. -/
theorem promised_ofEntries_nil (root : Path) : Promised names (ofEntries names root []) :=
  promised_ofEntries root fun _ _ hstated => nomatch hstated

/-! ## The file -/

/-- What can be read is there. -/
theorem exists?_of_read (hread : fs.read file = .ok bytes) : fs.exists? file = .ok true := by
  unfold FileSystem.read at hread
  split at hread
  · next hlookup =>
      simp only [FileSystem.exists?, FileSystem.entry?, hlookup]
      rfl
  · cases hread
  · cases hread

/-- The stages after a file has been found. -/
theorem load_eq (hfile : filePath fs path = .ok file) (hread : fs.read file = .ok bytes) :
    load names fs path = match readFile fs file with
      | .ok (.mapping stated) => ofEntries names file.parent stated
      | .ok _ => .error .notMapping
      | .error problem => .error problem := by
  rw [load, hfile]
  simp only [exists?_of_read hread]
  cases readFile fs file with
  | error e => rfl
  | ok d => cases d <;> rfl

theorem readFile_of_notText (hread : fs.read file = .ok bytes)
    (htext : Text.readText? bytes = none) :
    readFile fs file = .error (.path (.notText file)) := by
  simp only [readFile, FileSystem.readText, hread, htext]

section Texts

variable (hread : fs.read file = .ok bytes) (htext : Text.readText? bytes = some cs)
include hread htext

theorem readFile_of_blank (hblank : (Text.trim cs).isEmpty) :
    readFile fs file = .ok (.mapping []) := by
  simp only [readFile, FileSystem.readText, hread, htext, if_pos hblank]

theorem readFile_of_parse_ok {d : Datum} (hblank : ¬ (Text.trim cs).isEmpty)
    (hparse : Yaml.parse cs = .ok d) :
    readFile fs file = .ok (if d.truthy then d else .mapping []) := by
  simp only [readFile, FileSystem.readText, hread, htext, if_neg hblank, hparse]

theorem readFile_of_malformed (hblank : ¬ (Text.trim cs).isEmpty)
    (hparse : Yaml.parse cs = .error .malformed) :
    readFile fs file = .error (.malformed file.name) := by
  simp only [readFile, FileSystem.readText, hread, htext, if_neg hblank, hparse]

theorem readFile_of_defect {p : Yaml.Problem} (hblank : ¬ (Text.trim cs).isEmpty)
    (hdefect : Yaml.Defect cs p) : readFile fs file = .error (.value p) := by
  obtain ⟨hparse, hform⟩ := Yaml.defect_iff.mp hdefect
  simp only [readFile, FileSystem.readText, hread, htext, if_neg hblank, hparse]

end Texts

/-- A fault of the bytes comes out of loading as it is. -/
theorem load_of_slip (hfile : filePath fs path = .ok file) (hread : fs.read file = .ok bytes)
    (hslip : Slip names file bytes problem) : load names fs path = .error problem := by
  rw [load_eq hfile hread]
  cases hslip with
  | notText htext => rw [readFile_of_notText hread htext]
  | value htext hblank hdefect => rw [readFile_of_defect hread htext hblank hdefect]
  | @pattern cs stated text p htext hblank hparse hstated hpattern =>
      have htruthy : (Datum.mapping stated).truthy := by
        cases stated with
        | nil => cases hstated
        | cons => rfl
      rw [readFile_of_parse_ok hread htext hblank hparse, if_pos htruthy]
      exact ofEntries_of_parse_error hstated hpattern

/-- Loading keeps its promise unless the bytes have such a fault. -/
theorem promised_or_slip (hfile : filePath fs path = .ok file) (hread : fs.read file = .ok bytes) :
    Promised names (load names fs path) ∨ ∃ problem, Slip names file bytes problem := by
  rw [load_eq hfile hread]
  cases htext : Text.readText? bytes with
  | none => exact .inr ⟨_, .notText htext⟩
  | some cs =>
      by_cases hblank : (Text.trim cs).isEmpty
      · rw [readFile_of_blank hread htext hblank]
        exact .inl (promised_ofEntries_nil _)
      cases hparse : Yaml.parse cs with
      | error p =>
          by_cases hform : p = .malformed
          · rw [readFile_of_malformed hread htext hblank (hform ▸ hparse)]
            exact .inl (.refused trivial)
          · exact .inr ⟨_, .value htext hblank (Yaml.defect_iff.mpr ⟨hparse, hform⟩)⟩
      | ok d =>
          rw [readFile_of_parse_ok hread htext hblank hparse]
          by_cases htruthy : d.truthy
          · rw [if_pos htruthy]
            cases d with
            | mapping stated =>
                by_cases hslip : ∃ text p,
                    nonEmpty? (Datum.find? (.text "file_pattern") stated) = some text ∧
                      NamePattern.parse names text = .error p ∧ p ≠ .malformed
                · obtain ⟨text, p, hstated, hpattern, hform⟩ := hslip
                  exact .inr ⟨_, .pattern htext hblank hparse hstated hpattern hform⟩
                · refine .inl (promised_ofEntries _ fun text p hstated hpattern => ?_)
                  exact Decidable.byContradiction fun hform =>
                    hslip ⟨text, p, hstated, hpattern, hform⟩
            | _ => exact .inl (.refused trivial)
          · rw [if_neg htruthy]
            exact .inl (promised_ofEntries_nil _)

/-- **Loading settings ends as promised if and only if the bytes of the file have none of the three
faults.**  With such a fault loading fails with it as it is. -/
theorem settings_promised_iff (hfile : filePath fs path = .ok file)
    (hread : fs.read file = .ok bytes) :
    (Promised names (load names fs path) ↔ ¬ ∃ problem, Slip names file bytes problem) ∧
      ∀ problem, Slip names file bytes problem → load names fs path = .error problem := by
  refine ⟨⟨?_, (promised_or_slip hfile hread).resolve_right⟩, fun _ => load_of_slip hfile hread⟩
  rintro hpromised ⟨problem, hslip⟩
  rw [load_of_slip hfile hread hslip] at hpromised
  cases hpromised with
  | refused hrefusal => exact hslip.not_isRefusal hrefusal

/-- Too large a number is no matter of form, neither in a repetition nor for a character. -/
example :
    NamePattern.parse (fun _ => none) "a\x7b4294967295\x7d" = .error .countTooLarge ∧
      NamePattern.parse (fun _ => none) "\\UFFFFFFFF" = .error .numberTooLarge := by
  decide +kernel

/-- A directory with nothing but a settings file. -/
def onlySettings (bytes : List UInt8) : FileSystem :=
  ⟨.directory 0 [(fileName, .file bytes 0)], [], []⟩

/-- A moment that no calendar has comes out as it is. -/
theorem load_month_thirteen :
    let fs := onlySettings (Text.bytesOf "release: 2024-13-45")
    let names : CharacterNames := fun _ => none
    filePath fs ⟨.root, []⟩ = .ok ⟨.root, [fileName]⟩ ∧
      fs.read ⟨.root, [fileName]⟩ = .ok (Text.bytesOf "release: 2024-13-45") ∧
      load names fs ⟨.root, []⟩ = .error (.value (.calendar .month)) := by
  intro fs names
  have htext : Text.readText? (Text.bytesOf "release: 2024-13-45") =
      some "release: 2024-13-45".toList := by decide +kernel
  have hslip : Slip names ⟨.root, [fileName]⟩ (Text.bytesOf "release: 2024-13-45")
      (.value (.calendar .month)) := .value htext (by decide +kernel) (by decide +kernel)
  exact ⟨rfl, rfl, (settings_promised_iff rfl rfl).2 _ hslip⟩

/-- Loading a file whose one byte is no text ends neither with settings nor with a refusal. -/
theorem stray_byte_not_promised :
    let fs := onlySettings [0xFF]
    let names : CharacterNames := fun _ => none
    filePath fs ⟨.root, []⟩ = .ok ⟨.root, [fileName]⟩ ∧
      fs.read ⟨.root, [fileName]⟩ = .ok [0xFF] ∧ ¬ Promised names (load names fs ⟨.root, []⟩) := by
  intro fs names
  refine ⟨rfl, rfl, fun hpromised => ?_⟩
  have hslip : Slip names ⟨.root, [fileName]⟩ [0xFF] (.path (.notText ⟨.root, [fileName]⟩)) :=
    .notText (by decide +kernel)
  have hload : load names fs ⟨.root, []⟩ = _ := load_of_slip rfl rfl hslip
  rw [hload] at hpromised
  cases hpromised with
  | refused hrefusal => exact hrefusal

end Settings

end ComponentDocs
