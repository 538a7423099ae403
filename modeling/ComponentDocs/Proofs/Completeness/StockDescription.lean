import Mathlib.Data.List.Basic
import ComponentDocs.BaseRecord
import ComponentDocs.Merging
import ComponentDocs.Proofs.Text.CaseRuns
import ComponentDocs.Proofs.Text.Trimming

/-!
# Stock descriptions

A component that nobody has described has its stock description, which is made from the name of its
file.  The check for descriptions makes it once more, from the name that the record has in the end,
and it trims the description before the comparison.  So it finds the stock description exactly if
the file name has a word and no other name has been stated (`Curated.missesDescription_iff`).

That it finds it in this case rests on the names in Pascal case: such a name never starts with a
blank (`Naming.pascalCase_cases`), because no other character becomes a blank in upper case.
-/

namespace ComponentDocs

/-! ## Upper case -/

namespace Text

/-- The numbers of the blank characters, from the first to the last of each range. -/
private def blankRanges : List (ℕ × ℕ) :=
  [(0x09, 0x0D), (0x1C, 0x20), (0x85, 0x85), (0xA0, 0xA0), (0x1680, 0x1680), (0x2000, 0x200A),
    (0x2028, 0x2028), (0x2029, 0x2029), (0x202F, 0x202F), (0x205F, 0x205F), (0x3000, 0x3000)]

private theorem exists_range_of_isBlank {c : Char} (hc : isBlank c = true) :
    ∃ range ∈ blankRanges, range.1 ≤ c.toNat ∧ c.toNat ≤ range.2 := by
  simp only [isBlank, Bool.or_eq_true, Bool.and_eq_true, decide_eq_true_eq, beq_iff_eq,
    Nat.le_antisymm_iff, or_assoc] at hc
  simp only [blankRanges, List.exists_mem_cons_iff, List.not_mem_nil, false_and, exists_false,
    or_false]
  simpa only [and_comm] using hc

private theorem upperRuns_leadToChars : ∀ run ∈ upperRuns, run.LeadsToChars := by
  decide +kernel

/-- No run of the upper case table leads to a blank. -/
private theorem upperRuns_avoid_blanks : ∀ run ∈ upperRuns, ∀ range ∈ blankRanges,
    run.last + run.offset < range.1 ∨ range.2 < run.first + run.offset := by
  decide +kernel

private theorem upperExpansions_not_blank : ∀ entry ∈ upperExpansions,
    entry.2.head?.any (fun n => !isBlank (Char.ofNat n)) = true := by
  decide +kernel

theorem isBlank_mapByRuns_upperRuns {c : Char} (hc : isBlank c = false) :
    isBlank (mapByRuns upperRuns c) = false := by
  rcases mapByRuns_cases upperRuns c with ⟨hself, -⟩ | ⟨run, hrun, hcovers, hmapped⟩
  · rw [hself, hc]
  · have hmoved := (upperRuns_leadToChars run hrun).toNat_ofNat_apply hcovers
    obtain ⟨hrunFirst, hrunLast, -⟩ := CaseRun.covers_iff.mp hcovers
    rw [hmapped, Bool.eq_false_iff]
    intro hblank
    obtain ⟨range, hrange, hfirst, hlast⟩ := exists_range_of_isBlank hblank
    have havoids := upperRuns_avoid_blanks run hrun range hrange
    omega

/-- The upper case form of a character that is no blank starts with one that is none. -/
theorem upperChar_eq_cons {c : Char} (hc : isBlank c = false) :
    ∃ first rest, upperChar c = first :: rest ∧ isBlank first = false := by
  rw [upperChar]
  split
  · next hascii =>
      have hupper : ∀ n < 0x80, isBlank (Char.ofNat n) = false →
          isBlank (Char.ofNat n).toUpper = false := by decide +kernel
      have hchar := hupper c.toNat hascii
      rw [Char.ofNat_toNat] at hchar
      exact ⟨c.toUpper, [], rfl, hchar hc⟩
  · cases hform : upperExpansions.lookup c.toNat with
    | none => exact ⟨_, [], rfl, isBlank_mapByRuns_upperRuns hc⟩
    | some form =>
        obtain ⟨before, after, htable, -⟩ := List.lookup_eq_some_iff.mp hform
        have hmem : (c.toNat, form) ∈ upperExpansions := by rw [htable]; simp
        have hentry := upperExpansions_not_blank _ hmem
        cases form with
        | nil => cases hentry
        | cons first rest => exact ⟨_, _, rfl, by simpa using hentry⟩

end Text

/-! ## Words and names -/

namespace Naming

theorem isBlank_of_not_wordBreak {c : Char} (hc : isWordBreak c = false) :
    Text.isBlank c = false := by
  simp only [isWordBreak, Bool.or_eq_false_iff] at hc
  exact hc.2

/-- A word has a first character, and none of its characters is a break. -/
theorem of_mem_wordsAfter {cs current word : List Char}
    (hcurrent : ∀ c ∈ current, isWordBreak c = false) (hword : word ∈ wordsAfter current cs) :
    word ≠ [] ∧ ∀ c ∈ word, isWordBreak c = false := by
  have hlast (hne : ¬current.isEmpty = true) :
      current.reverse ≠ [] ∧ ∀ c ∈ current.reverse, isWordBreak c = false :=
    ⟨by simpa using hne, fun c hc => hcurrent c (List.mem_reverse.mp hc)⟩
  induction cs generalizing current with
  | nil =>
      rw [wordsAfter] at hword
      split at hword
      · cases hword
      · next hne => exact List.mem_singleton.mp hword ▸ hlast hne
  | cons c rest ih =>
      have hnone : ∀ d ∈ ([] : List Char), isWordBreak d = false := fun d hd => by cases hd
      rw [wordsAfter] at hword
      split at hword
      · split at hword
        · exact ih hnone hword (fun hne => absurd rfl hne)
        · next hne =>
            rcases List.mem_cons.mp hword with rfl | hrest
            · exact hlast hne
            · exact ih hnone hrest (fun hne => absurd rfl hne)
      · next hbreak =>
          have hlonger : ∀ d ∈ c :: current, isWordBreak d = false :=
            List.forall_mem_cons.mpr ⟨Bool.eq_false_iff.mpr hbreak, hcurrent⟩
          exact ih hlonger hword fun _ => ⟨by simp, fun d hd => hlonger d (List.mem_reverse.mp hd)⟩

/-- A text has no words exactly if it consists of breaks. -/
theorem wordsAfter_eq_nil_iff {cs current : List Char} :
    wordsAfter current cs = [] ↔ current = [] ∧ ∀ c ∈ cs, isWordBreak c = true := by
  induction cs generalizing current with
  | nil => cases current <;> simp [wordsAfter]
  | cons c rest ih =>
      rw [wordsAfter, List.forall_mem_cons]
      by_cases hbreak : isWordBreak c = true
      · rw [if_pos hbreak]
        cases current with
        | nil =>
            have hrest : wordsAfter [] rest = [] ↔ _ := ih
            simpa [hbreak] using hrest
        | cons d before => simp
      · rw [if_neg hbreak, ih]
        simp [hbreak]

theorem capitalize_eq_cons {word : List Char} (hne : word ≠ [])
    (hword : ∀ c ∈ word, isWordBreak c = false) :
    ∃ first rest, capitalize word = first :: rest ∧ Text.isBlank first = false := by
  cases word with
  | nil => exact absurd rfl hne
  | cons c more =>
      obtain ⟨first, rest, hupper, hfirst⟩ := Text.upperChar_eq_cons
        (isBlank_of_not_wordBreak (hword c List.mem_cons_self))
      exact ⟨first, rest ++ more, by rw [capitalize, hupper]; rfl, hfirst⟩

/-- A name in Pascal case is empty, or it starts with a character that is no blank. -/
theorem pascalCase_cases (s : String) :
    (pascalCase s = "" ∧ ∀ c ∈ s.toList, isWordBreak c = true) ∨
      ∃ first rest, (pascalCase s).toList = first :: rest ∧ Text.isBlank first = false ∧
        ∃ c ∈ s.toList, isWordBreak c = false := by
  cases hwords : words s.toList with
  | nil =>
      left
      rw [pascalCase, hwords]
      exact ⟨rfl, (wordsAfter_eq_nil_iff.mp hwords).2⟩
  | cons word more =>
      right
      have hword := of_mem_wordsAfter (fun c hc => by cases hc)
        (show word ∈ words s.toList by rw [hwords]; exact List.mem_cons_self)
      obtain ⟨first, rest, hcapital, hfirst⟩ := capitalize_eq_cons hword.1 hword.2
      refine ⟨first, rest ++ more.flatMap capitalize, ?_, hfirst, ?_⟩
      · rw [pascalCase, hwords, String.toList_ofList, List.flatMap_cons, hcapital,
          List.cons_append]
      · by_contra hnone
        push Not at hnone
        have hall : ∀ c ∈ s.toList, isWordBreak c = true := fun c hc => by simpa using hnone c hc
        have hnil : words s.toList = [] := wordsAfter_eq_nil_iff.mpr ⟨rfl, hall⟩
        rw [hwords] at hnil
        cases hnil

end Naming

/-! ## Finding the stock description -/

theorem trimmed_stockDescription_empty : Text.trimmed (stockDescription "") = "component" := by
  decide

/-- Behind a name that starts with no blank there is nothing to trim. -/
theorem trimmed_stockDescription {name : String} {first : Char} {rest : List Char}
    (hname : name.toList = first :: rest) (hfirst : Text.isBlank first = false) :
    Text.trimmed (stockDescription name) = stockDescription name := by
  have hchars : (stockDescription name).toList = name.toList ++ " component".toList :=
    String.toList_append
  have htrimmed : Text.IsTrimmed (stockDescription name).toList := by
    refine ⟨fun c hc => ?_, fun c hc => ?_⟩
    · rw [hchars, hname] at hc
      exact Option.some.inj hc ▸ hfirst
    · have hend : " component".toList.getLast? = some 't' := by decide
      rw [hchars, List.getLast?_append, hend] at hc
      exact Option.some.inj hc ▸ by decide
  rw [Text.trimmed, htrimmed.trim_eq, String.ofList_toList]

theorem stockDescription_ne (name : String) {description : String}
    (hlength : description.length < " component".length) :
    description ≠ stockDescription name := by
  intro h
  have hlengths := congrArg String.length h
  rw [stockDescription, String.length_append] at hlengths
  omega

/-- A record with the stock description of one name and another name is described. -/
theorem isDescribed_eq_false_iff {record : ComponentRecord} {s : String}
    (hrecord : record.description = stockDescription (Naming.pascalCase s)) :
    record.isDescribed = false ↔
      (∃ c ∈ s.toList, Naming.isWordBreak c = false) ∧ record.name = Naming.pascalCase s := by
  rw [ComponentRecord.isDescribed, hrecord]
  rcases Naming.pascalCase_cases s with ⟨hempty, hall⟩ | ⟨first, rest, hname, hfirst, hword⟩
  · have hne : "component" ≠ stockDescription record.name := stockDescription_ne _ (by decide)
    rw [hempty, trimmed_stockDescription_empty]
    constructor
    · intro h
      simp [hne] at h
    · rintro ⟨⟨c, hc, hbreak⟩, -⟩
      rw [hall c hc] at hbreak
      cases hbreak
  · have hne : stockDescription (Naming.pascalCase s) ≠ "" :=
      (stockDescription_ne _ (by decide)).symm
    have hsame : stockDescription (Naming.pascalCase s) = stockDescription record.name ↔
        record.name = Naming.pascalCase s := by
      rw [stockDescription, stockDescription, String.append_left_inj]
      exact eq_comm
    rw [trimmed_stockDescription hname hfirst]
    simp [hne, hsame, hword]

theorem description_mem_shortcomings_iff (record : ComponentRecord) :
    Shortcoming.description ∈ record.shortcomings ↔ record.isDescribed = false := by
  rw [ComponentRecord.shortcomings]
  cases record.isDescribed <;> simp

/-- What the file name alone decides. -/
theorem BaseRecord.name_and_description_of_build {fs : FileSystem} {path : Path}
    {properties : List Property} {base : ComponentRecord}
    (hbase : BaseRecord.build fs path properties = .ok base) :
    base.name = Naming.pascalCase path.stem ∧
      base.description = stockDescription (Naming.pascalCase path.stem) := by
  cases htime : BaseRecord.changeTime fs path with
  | error e =>
      simp only [BaseRecord.build, htime, bind, Except.bind, reduceCtorEq] at hbase
  | ok lastModified =>
      simp only [BaseRecord.build, htime, bind, Except.bind, pure, Except.pure,
        Except.ok.injEq] at hbase
      subst hbase
      exact ⟨rfl, rfl⟩

/-- **When a missing description is found.**  With no description stated, the check reports one
exactly if the name of the file has a word and the record bears the name made from it. -/
theorem Curated.missesDescription_iff {fs : FileSystem} {path : Path} {properties : List Property}
    {base : ComponentRecord} (hbase : BaseRecord.build fs path properties = .ok base) {c : Curated}
    (hc : c.description = none) :
    Shortcoming.description ∈ (c.apply base).shortcomings ↔
      (∃ ch ∈ path.stem.toList, Naming.isWordBreak ch = false) ∧
        ∀ name, c.name = some name → name = Naming.pascalCase path.stem := by
  obtain ⟨hname, hstock⟩ := BaseRecord.name_and_description_of_build hbase
  have hdescription : (c.apply base).description =
      stockDescription (Naming.pascalCase path.stem) := by
    rw [← hstock, Curated.apply, hc, Option.getD_none]
  have happlied : (c.apply base).name = c.name.getD (Naming.pascalCase path.stem) := by
    rw [← hname, Curated.apply]
  rw [description_mem_shortcomings_iff, isDescribed_eq_false_iff hdescription, happlied]
  cases c.name <;> simp

/-- A file system with one empty file. -/
def onlyFile (name : String) : FileSystem := ⟨.directory 0 [(name, .file [] 0)], [], []⟩

/-- A stated name that is the name of the file makes no difference. -/
theorem tagList_missesDescription :
    let base : ComponentRecord :=
      { id := "tag-list", name := "TagList", description := "TagList component"
        category := "Components", filePath := "/tag-list.tsx", properties := []
        lastModified := some { date := ⟨1970, 1, 1⟩, offset := some 0 } }
    let c : Curated := { id := some "tags", name := some "TagList" }
    BaseRecord.build (onlyFile "tag-list.tsx") ⟨.root, ["tag-list.tsx"]⟩ [] = .ok base ∧
      (Curated.parse "" [(.text "id", .text "tags"), (.text "name", .text "TagList")]).1 = .ok c ∧
      c.description = none ∧ Shortcoming.description ∈ (c.apply base).shortcomings := by
  intro base c
  have hbase : BaseRecord.build (onlyFile "tag-list.tsx") ⟨.root, ["tag-list.tsx"]⟩ [] =
      .ok base := by decide +kernel
  refine ⟨hbase, rfl, rfl, (Curated.missesDescription_iff hbase rfl).mpr ?_⟩
  exact ⟨⟨'t', by decide, by decide⟩, fun name hname => Option.some.inj hname ▸ by decide⟩

/-- What is found to be missing in the record of an empty file, given what is stated of it. -/
def missingFor (name : String) (stated : List (Datum × Datum)) : Option (List Shortcoming) := do
  let base ← (BaseRecord.build (onlyFile name) ⟨.root, [name]⟩ []).toOption
  let c ← (Curated.parse "" stated).1.toOption
  return (c.apply base).shortcomings

/-- With another name stated, and for a file without a word in its name, the missing description
goes unnoticed. -/
theorem renamed_and_wordless_unnoticed :
    missingFor "Tag.tsx" [(.text "name", .text "Label")] = some [.examples, .tokens] ∧
      missingFor "-.tsx" [] = some [.examples, .tokens] := by
  decide +kernel

end ComponentDocs
