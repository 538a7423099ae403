import Mathlib.Data.List.Basic
import ComponentDocs.Text.Blank

/-!
# Trimming

Trimming may start at either end of a text (`trimStart_trimEnd`), and blanks around a text make no
difference to it (`trim_append_of_blank`, `trim_of_blank_append`).  A trimmed text has no blank at
its ends (`isTrimmed_trim`), and a text without blanks there stays as it is (`IsTrimmed.trim_eq`).
All other characters stay, also where blanks collapse (`count_collapse`).
-/

namespace ComponentDocs.Text

variable {c : Char} {cs ds : List Char}

/-! ## At the end -/

@[simp] theorem trimEnd_nil : trimEnd [] = [] := rfl

theorem trimEnd_cons (c : Char) (cs : List Char) :
    trimEnd (c :: cs) = if (trimEnd cs).isEmpty && isBlank c then [] else c :: trimEnd cs := rfl

theorem trimEnd_cons_of_not_blank (hc : isBlank c = false) :
    trimEnd (c :: cs) = c :: trimEnd cs := by
  rw [trimEnd_cons, hc, Bool.and_false]
  rfl

/-- Blanks at the end make no difference. -/
theorem trimEnd_append_of_blank (hds : ∀ d ∈ ds, isBlank d) :
    trimEnd (cs ++ ds) = trimEnd cs := by
  induction cs with
  | nil =>
      rw [List.nil_append, trimEnd_nil]
      induction ds with
      | nil => rfl
      | cons d rest ih =>
          obtain ⟨hd, hrest⟩ := List.forall_mem_cons.mp hds
          rw [trimEnd_cons, ih hrest, hd]
          rfl
  | cons c rest ih => rw [List.cons_append, trimEnd_cons, trimEnd_cons, ih]

/-- A text whose last character is no blank stays as it is, whatever stands before it. -/
theorem trimEnd_append_of_eq_self (hds : trimEnd ds = ds) (hne : ds ≠ []) (cs : List Char) :
    trimEnd (cs ++ ds) = cs ++ ds := by
  induction cs with
  | nil => exact hds
  | cons c rest ih =>
      have hnonempty : (rest ++ ds).isEmpty = false := by simp [hne]
      rw [List.cons_append, trimEnd_cons, ih, hnonempty, Bool.false_and]
      rfl

/-- Behind a text whose last character is no blank, only what follows is trimmed. -/
theorem trimEnd_append_of_left_eq_self (hcs : trimEnd cs = cs) :
    trimEnd (cs ++ ds) = cs ++ trimEnd ds := by
  induction cs with
  | nil => rfl
  | cons c rest ih =>
      rw [trimEnd_cons] at hcs
      split at hcs
      · cases hcs
      · next hkept =>
          have hrest : trimEnd rest = rest := (List.cons.inj hcs).2
          rw [List.cons_append, trimEnd_cons, ih hrest, List.cons_append]
          rw [hrest] at hkept
          refine if_neg fun hdrop => hkept ?_
          simp only [Bool.and_eq_true, List.isEmpty_iff, List.append_eq_nil_iff] at hdrop ⊢
          exact ⟨hdrop.1.1, hdrop.2⟩

theorem trimEnd_eq_self (hlast : ∀ c ∈ cs.getLast?, isBlank c = false) : trimEnd cs = cs := by
  rcases List.eq_nil_or_concat cs with rfl | ⟨before, last, rfl⟩
  · rfl
  · have hend : trimEnd [last] = [last] := trimEnd_cons_of_not_blank (hlast last (by simp))
    simpa using trimEnd_append_of_eq_self hend (List.cons_ne_nil _ _) before

/-! ## At the start -/

theorem trimStart_cons (c : Char) (cs : List Char) :
    trimStart (c :: cs) = if isBlank c then trimStart cs else c :: cs := by
  rw [trimStart, List.dropWhile_cons]
  rfl

theorem trimStart_eq_self (hfirst : ∀ c ∈ cs.head?, isBlank c = false) : trimStart cs = cs := by
  cases cs with
  | nil => rfl
  | cons c rest => rw [trimStart_cons, hfirst c rfl, if_neg Bool.false_ne_true]

/-- Blanks at the start make no difference. -/
theorem trimStart_of_blank_append (hcs : ∀ c ∈ cs, isBlank c) :
    trimStart (cs ++ ds) = trimStart ds := by
  induction cs with
  | nil => rfl
  | cons c rest ih =>
      obtain ⟨hc, hrest⟩ := List.forall_mem_cons.mp hcs
      rw [List.cons_append, trimStart_cons, if_pos hc, ih hrest]

/-! ## At both ends -/

/-- **Trimming may start at either end.** -/
theorem trimStart_trimEnd (cs : List Char) : trimStart (trimEnd cs) = trim cs := by
  induction cs with
  | nil => rfl
  | cons c rest ih =>
      by_cases hc : isBlank c
      · have htrim : trim (c :: rest) = trim rest := by rw [trim, trimStart_cons, if_pos hc, trim]
        rw [htrim, trimEnd_cons, hc, Bool.and_true]
        split
        · next hempty => rw [← ih, List.isEmpty_iff.mp hempty]
        · rw [trimStart_cons, if_pos hc, ih]
      · have htrim : trim (c :: rest) = trimEnd (c :: rest) := by
          rw [trim, trimStart_cons, if_neg hc]
        rw [htrim, trimEnd_cons_of_not_blank (Bool.eq_false_iff.mpr hc), trimStart_cons,
          if_neg hc]

theorem trim_append_of_blank (hds : ∀ d ∈ ds, isBlank d) : trim (cs ++ ds) = trim cs := by
  rw [← trimStart_trimEnd, trimEnd_append_of_blank hds, trimStart_trimEnd]

theorem trim_of_blank_append (hcs : ∀ c ∈ cs, isBlank c) : trim (cs ++ ds) = trim ds := by
  rw [trim, trimStart_of_blank_append hcs, trim]

/-- There is no blank at either end of the text. -/
structure IsTrimmed (cs : List Char) : Prop where
  first : ∀ c ∈ cs.head?, isBlank c = false
  last : ∀ c ∈ cs.getLast?, isBlank c = false

theorem IsTrimmed.trim_eq (hcs : IsTrimmed cs) : trim cs = cs := by
  rw [trim, trimStart_eq_self hcs.first, trimEnd_eq_self hcs.last]

/-- Whatever stands between two trimmed texts, the whole is trimmed. -/
theorem IsTrimmed.append (hcs : IsTrimmed cs) (hds : IsTrimmed ds) (hcsNe : cs ≠ [])
    (hdsNe : ds ≠ []) (between : List Char) : IsTrimmed (cs ++ between ++ ds) where
  first c hc := by
    rw [List.append_assoc, List.head?_append_of_ne_nil _ hcsNe] at hc
    exact hcs.first c hc
  last c hc := by
    rw [List.getLast?_append_of_ne_nil _ hdsNe] at hc
    exact hds.last c hc

theorem trimEnd_trimEnd (cs : List Char) : trimEnd (trimEnd cs) = trimEnd cs := by
  induction cs with
  | nil => rfl
  | cons c rest ih =>
      rw [trimEnd_cons]
      split
      · rfl
      · next hkept => rw [trimEnd_cons, ih, if_neg hkept]

theorem trim_trimEnd (cs : List Char) : trim (trimEnd cs) = trim cs := by
  rw [← trimStart_trimEnd, trimEnd_trimEnd, trimStart_trimEnd]

theorem isTrimmed_trim (cs : List Char) : IsTrimmed (trim cs) where
  first c hc := by
    rw [← trimStart_trimEnd, trimStart] at hc
    have hfirst := List.head?_dropWhile_not isBlank (trimEnd cs)
    rw [Option.mem_def.mp hc] at hfirst
    exact hfirst
  last c hc := by
    rw [trim] at hc
    generalize trimStart cs = ds at hc
    induction ds with
    | nil => cases hc
    | cons d rest ih =>
        rw [trimEnd_cons] at hc
        split at hc
        · cases hc
        · next hkept =>
            cases hrest : trimEnd rest with
            | nil =>
                rw [hrest] at hc hkept
                cases hc
                simpa using hkept
            | cons e more =>
                rw [hrest, List.getLast?_cons_cons, ← hrest] at hc
                exact ih hc

/-! ## Other characters -/

theorem ne_of_isBlank {d : Char} (hd : isBlank d) (hc : isBlank c = false) : d ≠ c := by
  rintro rfl
  rw [hd] at hc
  cases hc

theorem count_trimStart (hc : isBlank c = false) (cs : List Char) :
    (trimStart cs).count c = cs.count c := by
  induction cs with
  | nil => rfl
  | cons d rest ih =>
      rw [trimStart_cons]
      split
      · next hd => rw [ih, List.count_cons_of_ne (ne_of_isBlank hd hc)]
      · rfl

theorem count_trimEnd (hc : isBlank c = false) (cs : List Char) :
    (trimEnd cs).count c = cs.count c := by
  induction cs with
  | nil => rfl
  | cons d rest ih =>
      rw [trimEnd_cons]
      split
      · next hd =>
          rw [Bool.and_eq_true, List.isEmpty_iff] at hd
          rw [List.count_cons_of_ne (ne_of_isBlank hd.2 hc), ← ih, hd.1]
      · rw [List.count_cons, List.count_cons, ih]

theorem count_squeeze (hc : isBlank c = false) (cs : List Char) :
    (squeeze cs).count c = cs.count c := by
  have hspace : ' ' ≠ c := ne_of_isBlank (by decide) hc
  fun_induction squeeze cs with
  | case1 => rfl
  | case2 d rest hd more hmore ih =>
      rw [List.count_cons_of_ne (ne_of_isBlank hd hc), ← ih, hmore]
  | case3 d rest hd _ ih =>
      rw [List.count_cons_of_ne (ne_of_isBlank hd hc), List.count_cons_of_ne hspace, ih]
  | case4 d rest hd ih => rw [List.count_cons, List.count_cons, ih]

/-- Collapsing blanks leaves all other characters. -/
theorem count_collapse (hc : isBlank c = false) (cs : List Char) :
    (collapse cs).count c = cs.count c := by
  rw [collapse, trim, count_trimEnd hc, count_trimStart hc, count_squeeze hc]

end ComponentDocs.Text
