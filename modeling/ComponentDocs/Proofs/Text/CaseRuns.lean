import Mathlib.Data.List.TakeWhile
import ComponentDocs.Text.Casing

/-!
# Case runs

Where the runs of a case table lead.  A run moves the characters that it covers by one offset, so a
few comparisons of its ends show that it leads to characters at all (`CaseRun.LeadsToChars`), and
that none of them is covered by another run (`CaseRun.Clears`).
-/

namespace ComponentDocs.Text

namespace CaseRun

variable {run other : CaseRun} {runs : List CaseRun} {m n : ℕ}

theorem covers_iff :
    run.covers n = true ↔ run.first ≤ n ∧ n ≤ run.last ∧ run.step ∣ n - run.first := by
  simp only [covers, Bool.and_eq_true, decide_eq_true_eq, beq_iff_eq, Nat.dvd_iff_mod_eq_zero,
    and_assoc]

theorem apply_eq (run : CaseRun) (n : ℕ) : run.apply n = ((n : ℤ) + run.offset).toNat := rfl

/-- The run leads to numbers of characters. -/
def LeadsToChars (run : CaseRun) : Prop :=
  0 ≤ run.first + run.offset ∧ run.last + run.offset < 0xD800 ∨
    0xDFFF < run.first + run.offset ∧ run.last + run.offset < 0x110000

instance : Decidable run.LeadsToChars := inferInstanceAs (Decidable (_ ∨ _))

theorem LeadsToChars.toNat_ofNat_apply (hrun : run.LeadsToChars) (hn : run.covers n = true) :
    ((Char.ofNat (run.apply n)).toNat : ℤ) = n + run.offset := by
  obtain ⟨hfirst, hlast, -⟩ := covers_iff.mp hn
  rw [LeadsToChars] at hrun
  have hvalid : (run.apply n).isValidChar := by
    rw [apply_eq, Nat.isValidChar]
    omega
  have hnumber : (Char.ofNat (run.apply n)).toNat = run.apply n := by
    rw [Char.ofNat, dif_pos hvalid]
    rfl
  rw [hnumber, apply_eq, Int.toNat_of_nonneg]
  omega

/-- The run leads past the other one: below it, above it, or between its numbers. -/
def Clears (run other : CaseRun) : Prop :=
  run.last + run.offset < other.first ∨ other.last < run.first + run.offset ∨
    (run.first = run.last ∨ other.step ∣ run.step) ∧
      ¬(other.step : ℤ) ∣ run.first + run.offset - other.first

instance : Decidable (run.Clears other) := inferInstanceAs (Decidable (_ ∨ _ ∨ _))

theorem Clears.covers_eq_false (hclears : run.Clears other) (hn : run.covers n = true)
    (hm : (m : ℤ) = n + run.offset) : other.covers m = false := by
  obtain ⟨hfirst, hlast, hstep⟩ := covers_iff.mp hn
  rw [Bool.eq_false_iff, Ne, covers_iff]
  rintro ⟨hotherFirst, hotherLast, hotherStep⟩
  rcases hclears with hbelow | habove | ⟨hsteps, hgap⟩
  · omega
  · omega
  · -- the numbers of the run differ by multiples of the other step, so all of them fall in gaps
    have halike : other.step ∣ n - run.first := by
      rcases hsteps with hsingle | hsteps
      · have hzero : n - run.first = 0 := by omega
        exact hzero ▸ Nat.dvd_zero _
      · exact Nat.dvd_trans hsteps hstep
    have hmoved : (run.first + run.offset - other.first : ℤ) =
        ((m - other.first : ℕ) : ℤ) - ((n - run.first : ℕ) : ℤ) := by omega
    apply hgap
    rw [hmoved]
    exact Int.dvd_sub (Int.natCast_dvd_natCast.mpr hotherStep) (Int.natCast_dvd_natCast.mpr halike)

/-- The runs of an ascending table that the run leads neither below nor above.  One scan finds them,
and the few that are left can be compared in full. -/
def near (run : CaseRun) (runs : List CaseRun) : List CaseRun :=
  (runs.dropWhile fun other => other.last.blt (run.apply run.first)).takeWhile
    fun other => other.first.ble (run.apply run.last)

theorem mem_takeWhile_first_ble (hascending : runs.Pairwise (·.first ≤ ·.first))
    (hother : other ∈ runs) (hn : other.first ≤ n) :
    other ∈ runs.takeWhile (·.first.ble n) := by
  induction runs with
  | nil => cases hother
  | cons head rest ih =>
      obtain ⟨hhead, hrest⟩ := List.pairwise_cons.mp hascending
      have hle : head.first ≤ n := by
        rcases List.mem_cons.mp hother with rfl | hmem
        · exact hn
        · exact (hhead other hmem).trans hn
      rw [List.takeWhile_cons, if_pos (Nat.ble_eq.mpr hle)]
      rcases List.mem_cons.mp hother with rfl | hmem
      · exact List.mem_cons_self
      · exact List.mem_cons_of_mem _ (ih hrest hmem)

theorem clears_of_near (hascending : runs.Pairwise (·.first ≤ ·.first))
    (hnear : ∀ other ∈ run.near runs, run.Clears other) : ∀ other ∈ runs, run.Clears other := by
  intro other hother
  by_cases hbelow : run.apply run.last < other.first
  · rw [apply_eq] at hbelow
    exact .inl (by omega)
  by_cases habove : other.last < run.apply run.first
  · rw [apply_eq] at habove
    exact .inr (.inl (by omega))
  apply hnear
  apply mem_takeWhile_first_ble (hascending.sublist (List.dropWhile_sublist _)) _ (by omega)
  rw [← List.takeWhile_append_dropWhile (p := fun other => other.last.blt (run.apply run.first))
    (l := runs), List.mem_append] at hother
  refine hother.resolve_left fun hdropped => habove ?_
  simpa using List.mem_takeWhile_imp hdropped

end CaseRun

theorem mapByRuns_cons (run : CaseRun) (runs : List CaseRun) (c : Char) :
    mapByRuns (run :: runs) c =
      if run.covers c.toNat then Char.ofNat (run.apply c.toNat) else mapByRuns runs c := by
  rw [mapByRuns, List.find?_cons]
  cases run.covers c.toNat <;> rfl

theorem mapByRuns_cases (runs : List CaseRun) (c : Char) :
    mapByRuns runs c = c ∧ (∀ run ∈ runs, run.covers c.toNat = false) ∨
      ∃ run ∈ runs, run.covers c.toNat = true ∧
        mapByRuns runs c = Char.ofNat (run.apply c.toNat) := by
  induction runs with
  | nil => exact .inl ⟨rfl, nofun⟩
  | cons run rest ih =>
      rw [mapByRuns_cons]
      cases hcovers : run.covers c.toNat with
      | true => exact .inr ⟨run, List.mem_cons_self, hcovers, rfl⟩
      | false =>
          refine ih.imp (fun ⟨hself, hnone⟩ => ⟨hself, ?_⟩) fun ⟨hit, hmem, hhit⟩ => ?_
          · exact List.forall_mem_cons.mpr ⟨hcovers, hnone⟩
          · exact ⟨hit, List.mem_cons_of_mem _ hmem, hhit⟩

end ComponentDocs.Text
