import Mathlib
import ComponentDocs.Proofs.Text.CaseRuns

/-!
# Lower case

A text in lower case stays as it is when it is put into lower case once more (`lowered_lowered`).
The case table does not promise that by its form, as a run could lead to characters that another
run moves on.  It holds because every run leads past all runs (`clears_of_mem`), so that each
character of a text in lower case stands for itself wherever it stands (`IsLowered`).
-/

namespace ComponentDocs.Text

variable {c d : Char} {cs before : List Char}

/-! ## The table -/

/-- The capital letters of ASCII. -/
def capitalRun : CaseRun := ⟨65, 90, 1, 32⟩

/-- The lower case table with the capital letters of ASCII. -/
def letterRuns : List CaseRun := capitalRun :: lowerRuns

/-- The dotted capital `İ`, which stands in no table: its lower case form has two characters. -/
def dottedRun : CaseRun := ⟨304, 304, 1, 0⟩

theorem isUpper_iff : c.isUpper = true ↔ 65 ≤ c.toNat ∧ c.toNat ≤ 90 := by
  simp [Char.isUpper, UInt32.le_iff_toNat_le]

theorem covers_capitalRun (c : Char) : capitalRun.covers c.toNat = c.isUpper := by
  rw [Bool.eq_iff_iff, CaseRun.covers_iff, isUpper_iff]
  simp [capitalRun]

theorem covers_dottedRun (hdotted : c ≠ 'İ') : dottedRun.covers c.toNat = false := by
  rw [Bool.eq_false_iff, Ne, CaseRun.covers_iff]
  rintro ⟨hfirst, hlast, -⟩
  have hnumber : c.toNat = 304 := Nat.le_antisymm hlast hfirst
  apply hdotted
  rw [← Char.ofNat_toNat c, hnumber]

theorem ascending_letterRuns : letterRuns.Pairwise (·.first ≤ ·.first) := by
  have hchain : (letterRuns.map CaseRun.first).IsChain (· ≤ ·) := by decide +kernel
  exact List.pairwise_map.mp (List.isChain_iff_pairwise.mp hchain)

theorem leadsToChars_of_mem : ∀ run ∈ letterRuns, run.LeadsToChars := by
  decide +kernel

/-- No run of the table leads to a character that the table changes. -/
theorem clears_of_mem {run other : CaseRun} (hrun : run ∈ letterRuns)
    (hother : other ∈ letterRuns) : run.Clears other := by
  have hnear : ∀ run ∈ letterRuns, ∀ other ∈ run.near letterRuns, run.Clears other := by
    decide +kernel
  exact CaseRun.clears_of_near ascending_letterRuns (hnear run hrun) other hother

theorem clears_dottedRun : ∀ run ∈ letterRuns, run.Clears dottedRun := by
  decide +kernel

/-! ## Characters -/

theorem toNat_lt_of_isUpper (hc : c.isUpper = true) : c.toNat < 0x80 :=
  Nat.lt_of_le_of_lt (isUpper_iff.mp hc).2 (by decide)

theorem lowerChar_of_ascii (hc : c.toNat < 0x80) : lowerChar c = [c.toLower] := if_pos hc

theorem mapByRuns_lowerRuns_of_ascii (hc : c.toNat < 0x80) : mapByRuns lowerRuns c = c := by
  have hbeyond : ∀ run ∈ lowerRuns, 0x80 ≤ run.first := by decide +kernel
  rcases mapByRuns_cases lowerRuns c with ⟨hself, -⟩ | ⟨run, hrun, hcovers, -⟩
  · exact hself
  · have hfirst := (CaseRun.covers_iff.mp hcovers).1
    exact absurd ((hbeyond run hrun).trans hfirst) (Nat.not_le.mpr hc)

theorem lowerChar_eq_mapByRuns (hdotted : c ≠ 'İ') : lowerChar c = [mapByRuns letterRuns c] := by
  rw [letterRuns, mapByRuns_cons, covers_capitalRun]
  by_cases hcapital : c.isUpper = true
  · rw [lowerChar_of_ascii (toNat_lt_of_isUpper hcapital), if_pos hcapital,
      Char.toLower_eq_of_isUpper hcapital]
    rfl
  · rw [if_neg hcapital]
    by_cases hascii : c.toNat < 0x80
    · rw [lowerChar_of_ascii hascii, Char.toLower_eq_of_not_isUpper hcapital,
        mapByRuns_lowerRuns_of_ascii hascii]
    · rw [lowerChar, if_neg hascii, if_neg hdotted]

/-- The character stands for itself in lower case, wherever it stands in a text. -/
structure IsLowered (c : Char) : Prop where
  lowerChar_eq : lowerChar c = [c]
  ne_sigma : c ≠ 'Σ'

theorem isLowered_of_not_covers (hdotted : dottedRun.covers c.toNat = false)
    (hletters : ∀ run ∈ letterRuns, run.covers c.toNat = false) : IsLowered c where
  lowerChar_eq := by
    have hne : c ≠ 'İ' := by
      rintro rfl
      exact absurd hdotted (by decide)
    rw [lowerChar_eq_mapByRuns hne]
    rcases mapByRuns_cases letterRuns c with ⟨hself, -⟩ | ⟨run, hrun, hcovers, -⟩
    · rw [hself]
    · rw [hletters run hrun] at hcovers
      cases hcovers
  ne_sigma := by
    rintro rfl
    have hsigma : ∃ run ∈ letterRuns, run.covers 'Σ'.toNat = true := by decide +kernel
    obtain ⟨run, hrun, hcovers⟩ := hsigma
    rw [hletters run hrun] at hcovers
    cases hcovers

/-- A lower case form consists of characters that stand for themselves. -/
theorem isLowered_of_mem_lowerChar (hd : d ∈ lowerChar c) : IsLowered d := by
  by_cases hdotted : c = 'İ'
  · have hform : lowerChar c = ['i', '\u0307'] := by
      rw [hdotted, lowerChar, if_neg (by decide), if_pos rfl]
    rw [hform, List.mem_pair] at hd
    rcases hd with rfl | rfl
    · exact ⟨by decide +kernel, by decide⟩
    · exact ⟨by decide +kernel, by decide⟩
  · rw [lowerChar_eq_mapByRuns hdotted, List.mem_singleton] at hd
    subst hd
    rcases mapByRuns_cases letterRuns c with ⟨hself, hnone⟩ | ⟨run, hrun, hcovers, hmapped⟩
    · rw [hself]
      exact isLowered_of_not_covers (covers_dottedRun hdotted) hnone
    · have hmoved := (leadsToChars_of_mem run hrun).toNat_ofNat_apply hcovers
      rw [hmapped]
      exact isLowered_of_not_covers ((clears_dottedRun run hrun).covers_eq_false hcovers hmoved)
        fun other hother => (clears_of_mem hrun hother).covers_eq_false hcovers hmoved

theorem isLowered_of_ascii (hascii : c.toNat < 0x80) (hcapital : c.isUpper = false) :
    IsLowered c where
  lowerChar_eq := by
    rw [lowerChar_of_ascii hascii, Char.toLower_eq_of_not_isUpper (Bool.eq_false_iff.mp hcapital)]
  ne_sigma := by
    rintro rfl
    exact absurd hascii (by decide)

theorem IsLowered.isUpper_eq_false (hc : IsLowered c) : c.isUpper = false := by
  rw [Bool.eq_false_iff]
  intro hcapital
  have hlower := hc.lowerChar_eq
  rw [lowerChar_of_ascii (toNat_lt_of_isUpper hcapital), List.singleton_inj] at hlower
  rw [← hlower, Char.isUpper_toLower_eq_false] at hcapital
  cases hcapital

/-! ## Texts -/

/-- A text in lower case consists of characters that stand for themselves. -/
theorem isLowered_of_mem_lowerAfter (hd : d ∈ lowerAfter before cs) : IsLowered d := by
  have hfinal : IsLowered 'ς' := ⟨by decide +kernel, by decide⟩
  have hsigma : IsLowered 'σ' := ⟨by decide +kernel, by decide⟩
  induction cs generalizing before with
  | nil => cases hd
  | cons c rest ih =>
      rw [lowerAfter, List.mem_append] at hd
      rcases hd with hform | hrest
      · split at hform
        · rw [List.mem_singleton] at hform
          split at hform
          · exact hform ▸ hfinal
          · exact hform ▸ hsigma
        · exact isLowered_of_mem_lowerChar hform
      · exact ih hrest

theorem lowerAfter_eq_self (hcs : ∀ c ∈ cs, IsLowered c) (before : List Char) :
    lowerAfter before cs = cs := by
  induction cs generalizing before with
  | nil => rfl
  | cons c rest ih =>
      obtain ⟨hc, hrest⟩ := List.forall_mem_cons.mp hcs
      rw [lowerAfter, if_neg hc.ne_sigma, hc.lowerChar_eq, ih hrest]
      rfl

/-- A text in lower case has no capital letter of ASCII. -/
theorem isUpper_of_mem_lower (hd : d ∈ lower cs) : d.isUpper = false :=
  (isLowered_of_mem_lowerAfter hd).isUpper_eq_false

theorem lowered_eq_self {s : String} (hs : ∀ c ∈ s.toList, IsLowered c) : lowered s = s := by
  rw [lowered, lower, lowerAfter_eq_self hs, String.ofList_toList]

/-- **A text in lower case stays as it is in lower case.** -/
theorem lowered_lowered (s : String) : lowered (lowered s) = lowered s := by
  refine lowered_eq_self fun c hc => ?_
  rw [lowered, String.toList_ofList] at hc
  exact isLowered_of_mem_lowerAfter hc

/-- In ASCII every character has its lower case form by itself. -/
theorem lowerAfter_of_ascii (hcs : ∀ c ∈ cs, c.toNat < 0x80) (before : List Char) :
    lowerAfter before cs = cs.map Char.toLower := by
  induction cs generalizing before with
  | nil => rfl
  | cons c rest ih =>
      obtain ⟨hc, hrest⟩ := List.forall_mem_cons.mp hcs
      have hsigma : c ≠ 'Σ' := by
        rintro rfl
        exact absurd hc (by decide)
      rw [lowerAfter, if_neg hsigma, lowerChar_of_ascii hc, ih hrest]
      rfl

end ComponentDocs.Text
