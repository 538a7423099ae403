import Mathlib.Data.List.Basic
import ComponentDocs.Override.Format
import ComponentDocs.Proofs.Data.Keys
import ComponentDocs.Proofs.Yaml.Defects

/-!
# What loading an override promises

Whoever loads the override file of a component expects a curated record, or a refusal that says what
is wrong with the file (`Promised`).  An assignment file and a data file in JSON keep this promise
whatever they hold; a data file in YAML keeps it unless a scalar or an escape in its text has no
value, which comes out of the reader as it is (`Slip`).

* `override_promised_iff`: whatever an override file holds, loading it keeps the promise if and only
  if it has no such fault, and with one loading fails with just that and reports nothing.

The readers of single fields refuse what does not fit them.  The one lookup among them that has no
way out never misses (`exists_lookup_name`).
-/

namespace ComponentDocs

/-- A problem is a refusal: it says what is wrong with the override file. -/
def OverrideProblem.IsRefusal : OverrideProblem → Prop
  | .path _ | .value _ => False
  | _ => True

namespace Curated

/-- A property with a name also has one under its normal key. -/
theorem exists_lookup_name {entries : List (Datum × Datum)}
    (hname : (Datum.find? (.text "name") entries).isSome) :
    ∃ d, (normalEntries entries).reverse.lookup "name" = some d := by
  rw [Datum.find?, Option.isSome_map, List.find?_isSome] at hname
  obtain ⟨⟨key, value⟩, hentry, hkey⟩ := hname
  obtain rfl := Datum.eq_text_of_sameKey hkey
  have hnormal : normalKey "name" = "name" := by decide +kernel
  have hmem : (normalKey "name", value) ∈ normalEntries entries := List.mem_map_of_mem hentry
  rw [hnormal] at hmem
  exact Option.isSome_iff_exists.mp (List.lookup_isSome_iff.mpr
    ⟨_, List.mem_reverse.mpr hmem, beq_self_eq_true _⟩)

end Curated

namespace OverrideFormat

/-- A result that loading promises: a curated record, or a refusal. -/
inductive Promised : Except OverrideProblem Curated → Prop
  | loaded (curated : Curated) : Promised (.ok curated)
  | refused {problem : OverrideProblem} (hrefusal : problem.IsRefusal) : Promised (.error problem)

/-- A fault of an override file that its reader does not turn into a refusal. -/
inductive Slip (fs : FileSystem) (file : Path) : OverrideFormat → OverrideProblem → Prop
  | value {cs : List Char} {p : Yaml.Problem} (hsuffix : file.suffix ≠ ".json")
      (htext : fs.readText file = .ok cs) (hdefect : Yaml.Defect cs p) :
      Slip fs file .data (.value p)

variable {fs : FileSystem} {component file : Path} {format : OverrideFormat}
  {problem : OverrideProblem}

theorem Slip.not_isRefusal (hslip : Slip fs file format problem) : ¬ problem.IsRefusal := by
  cases hslip
  exact id

/-! ## Reading -/

theorem isRefusal_of_readAssignments (hread : readAssignments fs file = .error problem) :
    problem.IsRefusal := by
  unfold readAssignments at hread
  split at hread
  · cases hread
    trivial
  · split at hread
    · cases hread
      trivial
    · split at hread
      · cases hread
      · cases hread
        trivial

/-- A fault of the file comes out of reading it as it is. -/
theorem read_of_slip (hslip : Slip fs file format problem) :
    format.read fs file = .error problem := by
  obtain ⟨hsuffix, htext, hdefect⟩ := hslip
  obtain ⟨hparse, hform⟩ := Yaml.defect_iff.mp hdefect
  simp only [read, readData, htext, if_neg hsuffix, hparse]
  rfl

theorem isRefusal_or_slip_of_readData (hread : readData fs file = .error problem) :
    problem.IsRefusal ∨ Slip fs file .data problem := by
  cases htext : fs.readText file with
  | error e =>
      rw [readData, htext] at hread
      cases hread
      exact .inl trivial
  | ok cs =>
      by_cases hsuffix : file.suffix = ".json"
      · simp only [readData, htext, if_pos hsuffix] at hread
        cases hparse : Json.parse? cs with
        | none =>
            rw [hparse] at hread
            cases hread
            exact .inl trivial
        | some d =>
            rw [hparse] at hread
            cases d <;> cases hread
      · cases hparse : Yaml.parse cs with
        | ok d =>
            simp only [readData, htext, if_neg hsuffix, hparse] at hread
            cases d <;> cases hread
        | error p =>
            by_cases hform : p = .malformed
            · simp only [readData, htext, if_neg hsuffix, hparse, hform] at hread
              cases hread
              exact .inl trivial
            · have hslip := Slip.value hsuffix htext (Yaml.defect_iff.mpr ⟨hparse, hform⟩)
              rw [← read, read_of_slip hslip] at hread
              cases hread
              exact .inr hslip

theorem isRefusal_or_slip_of_read (hread : format.read fs file = .error problem) :
    problem.IsRefusal ∨ Slip fs file format problem := by
  cases format with
  | assignments => exact .inl (isRefusal_of_readAssignments hread)
  | data => exact isRefusal_or_slip_of_readData hread

/-! ## Loading -/

theorem promised_loadFile_of_read_ok {d : Datum} (hread : format.read fs file = .ok d) :
    Promised (format.loadFile fs file).1 := by
  rw [loadFile, hread]
  cases d with
  | mapping entries =>
      rcases hparse : Curated.parse file.toString entries with ⟨curated | e, diagnostics⟩
      · simp only [hparse]
        exact .refused trivial
      · simp only [hparse]
        exact .loaded _
  | _ => exact .refused trivial

theorem loadFile_of_read_error (hread : format.read fs file = .error problem) :
    format.loadFile fs file = (.error problem, []) := by
  rw [loadFile, hread]

theorem load_eq_loadFile (hpath : format.path? fs component = .ok (some file)) :
    format.load fs component = format.loadFile fs file := by
  rw [load, hpath]

/-- **Loading the override of a component ends as promised if and only if its file is no YAML text
with a scalar or an escape without a value.**  With such a fault loading fails with it as it is, and
reports nothing. -/
theorem override_promised_iff (hpath : format.path? fs component = .ok (some file)) :
    (Promised (format.load fs component).1 ↔ ¬ ∃ problem, Slip fs file format problem) ∧
      ∀ problem, Slip fs file format problem →
        format.load fs component = (.error problem, []) := by
  have hload := load_eq_loadFile hpath
  have hslip (problem : OverrideProblem) (hslip : Slip fs file format problem) :
      format.load fs component = (.error problem, []) := by
    rw [hload]
    exact loadFile_of_read_error (read_of_slip hslip)
  refine ⟨⟨?_, fun hnone => ?_⟩, hslip⟩
  · rintro hpromised ⟨problem, hfault⟩
    rw [hslip problem hfault] at hpromised
    cases hpromised with
    | refused hrefusal => exact hfault.not_isRefusal hrefusal
  · rw [hload]
    cases hread : format.read fs file with
    | ok d => exact promised_loadFile_of_read_ok hread
    | error problem =>
        rw [loadFile_of_read_error hread]
        exact .refused ((isRefusal_or_slip_of_read hread).resolve_right fun hfault =>
          hnone ⟨problem, hfault⟩)

/-- A directory with nothing but one file, which states a month that no year has. -/
def onlyOverride (name : String) : FileSystem :=
  ⟨.directory 0 [(name, .file (Text.bytesOf "lastModified: 2024-13-45\n") 0)], [], []⟩

/-- As JSON the text is malformed, which is a refusal. -/
theorem json_promised :
    let fs := onlyOverride "Tag.docs.json"
    path? .data fs ⟨.root, ["Tag.tsx"]⟩ = .ok (some ⟨.root, ["Tag.docs.json"]⟩) ∧
      Promised (load .data fs ⟨.root, ["Tag.tsx"]⟩).1 := by
  intro fs
  have hpath : path? .data fs ⟨.root, ["Tag.tsx"]⟩ = .ok (some ⟨.root, ["Tag.docs.json"]⟩) := by
    decide +kernel
  refine ⟨hpath, (override_promised_iff hpath).1.mpr ?_⟩
  rintro ⟨problem, hsuffix, -, -⟩
  exact hsuffix (by decide +kernel)

/-- As YAML it ends neither with a curated record nor with a refusal. -/
theorem month_thirteen_not_promised :
    let fs := onlyOverride "Tag.docs.yml"
    path? .data fs ⟨.root, ["Tag.tsx"]⟩ = .ok (some ⟨.root, ["Tag.docs.yml"]⟩) ∧
      ¬ Promised (load .data fs ⟨.root, ["Tag.tsx"]⟩).1 := by
  intro fs
  have hpath : path? .data fs ⟨.root, ["Tag.tsx"]⟩ = .ok (some ⟨.root, ["Tag.docs.yml"]⟩) := by
    decide +kernel
  have htext : fs.readText ⟨.root, ["Tag.docs.yml"]⟩ =
      .ok "lastModified: 2024-13-45\n".toList := by decide +kernel
  have hslip : Slip fs ⟨.root, ["Tag.docs.yml"]⟩ .data (.value (.calendar .month)) :=
    .value (by decide +kernel) htext (by decide +kernel)
  have hload : load .data fs ⟨.root, ["Tag.tsx"]⟩ = (.error (.value (.calendar .month)), []) := by
    rw [load_eq_loadFile hpath]
    exact loadFile_of_read_error (read_of_slip hslip)
  refine ⟨hpath, fun hpromised => ?_⟩
  rw [hload] at hpromised
  cases hpromised with
  | refused hrefusal => exact hslip.not_isRefusal hrefusal

end OverrideFormat

end ComponentDocs
