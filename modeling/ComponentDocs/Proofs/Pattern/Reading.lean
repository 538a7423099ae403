import Mathlib
import ComponentDocs.NamePattern

/-!
# Reading comes to its end

The loops that read a pattern are recursions on a number of rounds that they are given.  That number
is bookkeeping and no bound: each round uses up a unit of the text, and nothing that is read gives
one back, so that as many rounds as there are units are enough.  This is stated as a congruence for
each loop, since any two numbers that are enough lead to the same end.

* `PatternReader.step_spec`: reading what stands next uses up a unit.
* `PatternReader.readOn_congr`: so a pattern is read in as many steps as it has units.

That no unit is given back is a triple for each part of reading, from which the conditions of the
larger parts are generated.  Only the bounds of a repetition are left again, if a brace opens none,
and then reading goes on right behind the brace.
-/

namespace ComponentDocs.PatternReader

open Std.Do

set_option mvcgen.warning false

/-! ## Running -/

section Running

variable {α β : Type} {m : Reading α} {f g : α → Reading β} {r r' : PatternReader} {a : α}

theorem holds_of_run {P : PatternReader → Prop} {Q : α → PatternReader → Prop}
    (hm : ⦃fun r => ⌜P r⌝⦄ m ⦃⇓? a r => ⌜Q a r⌝⦄) (hP : P r) (hrun : m.run r = .ok (a, r')) :
    Q a r' := by
  have h : ((wp (m.run r)).trans
      (fun next => ⌜Q next.1 next.2⌝, ExceptConds.true)).down := hm r hP
  rw [hrun] at h
  exact h

theorem run_bind (m : Reading α) (f : α → Reading β) (r : PatternReader) :
    (m >>= f).run r = match m.run r with
      | .ok (a, r') => (f a).run r'
      | .error p => .error p := by
  rw [StateT.run_bind]
  cases m.run r <;> rfl

theorem run_get_bind (f : PatternReader → Reading β) (r : PatternReader) :
    (get >>= f).run r = (f r).run r := rfl

/-- What follows has to agree only where the first part can end. -/
theorem run_bind_congr
    (h : ∀ a r', m.run r = .ok (a, r') → (f a).run r' = (g a).run r') :
    (m >>= f).run r = (m >>= g).run r := by
  rw [run_bind, run_bind]
  cases hm : m.run r with
  | error p => rfl
  | ok next => exact h next.1 next.2 hm

end Running

/-! ## No unit is given back -/

section Units

variable {n : ℕ}

@[spec] theorem throw_spec {α : Type} (p : PatternProblem)
    (Q : α → Assertion (.arg PatternReader (.except PatternProblem .pure))) :
    ⦃⌜True⌝⦄ (throw p : Reading α) ⦃⇓? a => Q a⦄ := by
  intro r _
  trivial

@[spec] theorem malformed_spec {α : Type}
    (Q : α → Assertion (.arg PatternReader (.except PatternProblem .pure))) :
    ⦃⌜True⌝⦄ (malformed : Reading α) ⦃⇓? a => Q a⦄ :=
  throw_spec .malformed Q

/-- The next unit is used up. -/
@[spec] theorem next_spec :
    ⦃fun r => ⌜r.tokens.length ≤ n⌝⦄ next ⦃⇓? _ r => ⌜r.tokens.length < n⌝⦄ := by
  mvcgen [next]
  grind

@[spec] theorem accepts_spec (c : Char) :
    ⦃fun r => ⌜r.tokens.length ≤ n⌝⦄ accepts c ⦃⇓? _ r => ⌜r.tokens.length ≤ n⌝⦄ := by
  mvcgen [accepts]
  omega

@[spec] theorem takeUpTo_spec (kind : Char → Bool) (count : ℕ) :
    ⦃fun r => ⌜r.tokens.length ≤ n⌝⦄ takeUpTo kind count
    ⦃⇓? _ r => ⌜r.tokens.length ≤ n⌝⦄ := by
  induction count with
  | zero => mvcgen [takeUpTo]
  | succ count ih =>
      mvcgen [takeUpTo, ih]
      omega

@[spec] theorem textUpTo_spec (stop : Char) (fuel : ℕ) :
    ⦃fun r => ⌜r.tokens.length ≤ n⌝⦄ textUpTo stop fuel
    ⦃⇓? _ r => ⌜r.tokens.length ≤ n⌝⦄ := by
  induction fuel with
  | zero => mvcgen [textUpTo]
  | succ fuel ih => mvcgen [textUpTo, ih] <;> omega

@[spec] theorem name_spec (stop : Char) :
    ⦃fun r => ⌜r.tokens.length ≤ n⌝⦄ name stop ⦃⇓? _ r => ⌜r.tokens.length ≤ n⌝⦄ := by
  mvcgen [name]
  omega

variable (names : CharacterNames)

@[spec] theorem number?_spec (c : Char) :
    ⦃fun r => ⌜r.tokens.length ≤ n⌝⦄ number? names c ⦃⇓? _ r => ⌜r.tokens.length ≤ n⌝⦄ := by
  unfold number?
  split <;> mvcgen [namedNumber, wideNumber, hexNumber, -Spec.throw_MonadExcept] <;> omega

@[spec] theorem setEscape_spec (c : Char) :
    ⦃fun r => ⌜r.tokens.length ≤ n⌝⦄ setEscape names c
    ⦃⇓? _ r => ⌜r.tokens.length ≤ n⌝⦄ := by
  mvcgen [setEscape, octal] <;> omega

@[spec] theorem reference_spec (number : ℕ) :
    ⦃fun r => ⌜r.tokens.length ≤ n⌝⦄ reference number ⦃⇓? _ r => ⌜r.tokens.length ≤ n⌝⦄ := by
  mvcgen [reference]

@[spec] theorem escape_spec (c : Char) :
    ⦃fun r => ⌜r.tokens.length ≤ n⌝⦄ escape names c ⦃⇓? _ r => ⌜r.tokens.length ≤ n⌝⦄ := by
  mvcgen [escape, numbered, octal] <;> omega

@[spec] theorem member_spec (t : PatternToken) :
    ⦃fun r => ⌜r.tokens.length ≤ n⌝⦄ member names t ⦃⇓? _ r => ⌜r.tokens.length ≤ n⌝⦄ := by
  unfold member
  split <;> mvcgen

@[spec] theorem members_spec (fuel : ℕ) (isFirst : Bool) :
    ⦃fun r => ⌜r.tokens.length ≤ n⌝⦄ members names fuel isFirst
    ⦃⇓? _ r => ⌜r.tokens.length ≤ n⌝⦄ := by
  induction fuel generalizing isFirst with
  | zero => mvcgen [members]
  | succ fuel ih => mvcgen [members, ih] <;> omega

@[spec] theorem charSet_spec :
    ⦃fun r => ⌜r.tokens.length ≤ n⌝⦄ charSet names ⦃⇓? _ r => ⌜r.tokens.length ≤ n⌝⦄ := by
  mvcgen [charSet]
  omega

@[spec] theorem repeatLast_spec (least : ℕ) (most : Option ℕ) :
    ⦃fun r => ⌜r.tokens.length ≤ n⌝⦄ repeatLast least most
    ⦃⇓? _ r => ⌜r.tokens.length ≤ n⌝⦄ := by
  mvcgen [repeatLast, manner] <;> grind

@[spec] theorem repetition_spec (c : Char) :
    ⦃fun r => ⌜r.tokens.length ≤ n⌝⦄ repetition c ⦃⇓? _ r => ⌜r.tokens.length ≤ n⌝⦄ := by
  mvcgen [repetition, boundDigits?, takeAll, bounds, count, add, -Spec.throw_MonadExcept] <;> omega

@[spec] theorem flag_spec (c : Char) :
    ⦃fun r => ⌜r.tokens.length ≤ n⌝⦄ flag c ⦃⇓? _ r => ⌜r.tokens.length ≤ n⌝⦄ := by
  mvcgen [flag]

@[spec] theorem flagsUpTo_spec (stops : List Char) (fuel : ℕ) :
    ⦃fun r => ⌜r.tokens.length ≤ n⌝⦄ flagsUpTo stops fuel
    ⦃⇓? _ r => ⌜r.tokens.length ≤ n⌝⦄ := by
  induction fuel with
  | zero => mvcgen [flagsUpTo]
  | succ fuel ih => mvcgen [flagsUpTo, ih] <;> omega

@[spec] theorem openLevel_spec (opening : PatternOpening) :
    ⦃fun r => ⌜r.tokens.length ≤ n⌝⦄ openLevel opening ⦃⇓? _ r => ⌜r.tokens.length ≤ n⌝⦄ := by
  mvcgen [openLevel]

@[spec] theorem flagGroup_spec (c : Char) :
    ⦃fun r => ⌜r.tokens.length ≤ n⌝⦄ flagGroup c ⦃⇓? _ r => ⌜r.tokens.length ≤ n⌝⦄ := by
  mvcgen [flagGroup, addFlags] <;> omega

@[spec] theorem opening_spec :
    ⦃fun r => ⌜r.tokens.length ≤ n⌝⦄ opening ⦃⇓? _ r => ⌜r.tokens.length ≤ n⌝⦄ := by
  mvcgen [opening, named, conditional, openGroup, identifier, groupNamed, add, askedFor] <;> grind

@[spec] theorem skipLine_spec (fuel : ℕ) :
    ⦃fun r => ⌜r.tokens.length ≤ n⌝⦄ skipLine fuel ⦃⇓? _ r => ⌜r.tokens.length ≤ n⌝⦄ := by
  induction fuel with
  | zero => mvcgen [skipLine]
  | succ fuel ih => mvcgen [skipLine, ih] <;> omega

/-- **Reading what stands next uses up a unit.** -/
theorem step_spec :
    ⦃fun r => ⌜r.tokens.length ≤ n⌝⦄ step names ⦃⇓? _ r => ⌜r.tokens.length < n⌝⦄ := by
  mvcgen [step, add, bar, closeLevel] <;> grind

end Units

/-! ## Enough rounds -/

section Rounds

variable {n m : ℕ} {r : PatternReader} (names : CharacterNames)

theorem takeUpTo_of_nil (kind : Char → Bool) (n : ℕ) (hnone : r.tokens = []) :
    (takeUpTo kind n).run r = .ok ([], r) := by
  cases n with
  | zero => rfl
  | succ n =>
      rw [takeUpTo, run_get_bind, hnone]
      rfl

theorem takeUpTo_congr (kind : Char → Bool) (hn : r.tokens.length ≤ n)
    (hm : r.tokens.length ≤ m) : (takeUpTo kind n).run r = (takeUpTo kind m).run r := by
  induction n generalizing m r with
  | zero =>
      have hnone : r.tokens = [] := List.length_eq_zero_iff.mp (by omega)
      rw [takeUpTo_of_nil kind 0 hnone, takeUpTo_of_nil kind m hnone]
  | succ n ih =>
      by_cases hnone : r.tokens = []
      · rw [takeUpTo_of_nil kind _ hnone, takeUpTo_of_nil kind m hnone]
      · have hsome : 0 < r.tokens.length := List.length_pos_of_ne_nil hnone
        obtain ⟨m, rfl⟩ : ∃ k, m = k + 1 := ⟨m - 1, by omega⟩
        rw [takeUpTo, takeUpTo, run_get_bind, run_get_bind]
        split
        · split
          · refine run_bind_congr fun t r₁ hnext => ?_
            have hless : r₁.tokens.length < r.tokens.length :=
              holds_of_run next_spec le_rfl hnext
            have hrest : (takeUpTo kind n).run r₁ = (takeUpTo kind m).run r₁ :=
              ih (by omega) (by omega)
            rw [run_bind, run_bind, hrest]
          · rfl
        · rfl

theorem textUpTo_congr (stop : Char) (hn : r.tokens.length < n) (hm : r.tokens.length < m) :
    (textUpTo stop n).run r = (textUpTo stop m).run r := by
  induction n generalizing m r with
  | zero => omega
  | succ n ih =>
      obtain ⟨m, rfl⟩ : ∃ k, m = k + 1 := ⟨m - 1, by omega⟩
      rw [textUpTo, textUpTo]
      refine run_bind_congr fun t r' hnext => ?_
      have hless : r'.tokens.length < r.tokens.length := holds_of_run next_spec le_rfl hnext
      have hrest : (textUpTo stop n).run r' = (textUpTo stop m).run r' := ih (by omega) (by omega)
      cases t with
      | plain c =>
          dsimp only
          split
          · rfl
          · rw [run_bind, run_bind, hrest]
      | escaped c =>
          dsimp only
          rw [run_bind, run_bind, hrest]
      | unfinished => rfl

theorem members_congr (isFirst : Bool) (hn : r.tokens.length < n) (hm : r.tokens.length < m) :
    (members names n isFirst).run r = (members names m isFirst).run r := by
  induction n generalizing m r isFirst with
  | zero => omega
  | succ n ih =>
      obtain ⟨m, rfl⟩ : ∃ k, m = k + 1 := ⟨m - 1, by omega⟩
      have hrest {r' : PatternReader} (hless : r'.tokens.length < r.tokens.length) :
          (members names n false).run r' = (members names m false).run r' :=
        ih false (by omega) (by omega)
      rw [members, members]
      refine run_bind_congr fun t r₁ hnext => ?_
      have hless₁ : r₁.tokens.length < r.tokens.length := holds_of_run next_spec le_rfl hnext
      split
      · rfl
      · refine run_bind_congr fun low r₂ hlow => ?_
        have hless₂ : r₂.tokens.length ≤ r₁.tokens.length :=
          holds_of_run (member_spec names t) le_rfl hlow
        refine run_bind_congr fun isRange r₃ haccepts => ?_
        have hless₃ : r₃.tokens.length ≤ r₂.tokens.length :=
          holds_of_run (accepts_spec '-') le_rfl haccepts
        split
        · refine run_bind_congr fun t r₄ hnext => ?_
          have hless₄ : r₄.tokens.length < r₃.tokens.length :=
            holds_of_run next_spec le_rfl hnext
          split
          · rfl
          · refine run_bind_congr fun high r₅ hhigh => ?_
            have hless₅ : r₅.tokens.length ≤ r₄.tokens.length :=
              holds_of_run (member_spec names t) le_rfl hhigh
            split
            · split
              · rfl
              · rw [run_bind, run_bind, hrest (by omega)]
            · rfl
        · rw [run_bind, run_bind, hrest (by omega)]

theorem flagsUpTo_congr (stops : List Char) (hn : r.tokens.length < n)
    (hm : r.tokens.length < m) : (flagsUpTo stops n).run r = (flagsUpTo stops m).run r := by
  induction n generalizing m r with
  | zero => omega
  | succ n ih =>
      obtain ⟨m, rfl⟩ : ∃ k, m = k + 1 := ⟨m - 1, by omega⟩
      rw [flagsUpTo, flagsUpTo]
      refine run_bind_congr fun t r₁ hnext => ?_
      have hless₁ : r₁.tokens.length < r.tokens.length := holds_of_run next_spec le_rfl hnext
      split
      · split
        · rfl
        · refine run_bind_congr fun here r₂ hflag => ?_
          have hless₂ : r₂.tokens.length ≤ r₁.tokens.length :=
            holds_of_run (flag_spec _) le_rfl hflag
          have hrest : (flagsUpTo stops n).run r₂ = (flagsUpTo stops m).run r₂ :=
            ih (by omega) (by omega)
          rw [run_bind, run_bind, hrest]
      · rfl

theorem skipLine_congr (hn : r.tokens.length < n) (hm : r.tokens.length < m) :
    (skipLine n).run r = (skipLine m).run r := by
  induction n generalizing m r with
  | zero => omega
  | succ n ih =>
      obtain ⟨m, rfl⟩ : ∃ k, m = k + 1 := ⟨m - 1, by omega⟩
      rw [skipLine, skipLine, run_get_bind, run_get_bind]
      split
      · rfl
      · refine run_bind_congr fun t r₁ hnext => ?_
        have hless : r₁.tokens.length < r.tokens.length := holds_of_run next_spec le_rfl hnext
        split
        · exact ih (by omega) (by omega)
        · rfl

theorem readOn_of_nil (n : ℕ) (hnone : r.tokens = []) :
    (readOn names n).run r = .ok ((), r) := by
  cases n with
  | zero => rfl
  | succ n =>
      rw [readOn, run_get_bind, hnone]
      rfl

/-- **A pattern is read in as many steps as it has units**: more of them change nothing. -/
theorem readOn_congr (hn : r.tokens.length ≤ n) (hm : r.tokens.length ≤ m) :
    (readOn names n).run r = (readOn names m).run r := by
  induction n generalizing m r with
  | zero =>
      have hnone : r.tokens = [] := List.length_eq_zero_iff.mp (by omega)
      rw [readOn_of_nil names 0 hnone, readOn_of_nil names m hnone]
  | succ n ih =>
      by_cases hnone : r.tokens = []
      · rw [readOn_of_nil names _ hnone, readOn_of_nil names m hnone]
      · have hsome : 0 < r.tokens.length := List.length_pos_of_ne_nil hnone
        obtain ⟨m, rfl⟩ : ∃ k, m = k + 1 := ⟨m - 1, by omega⟩
        rw [readOn, readOn, run_get_bind, run_get_bind]
        split
        · rfl
        · refine run_bind_congr fun _ r₁ hstep => ?_
          have hless : r₁.tokens.length < r.tokens.length :=
            holds_of_run (step_spec names) le_rfl hstep
          exact ih (by omega) (by omega)

end Rounds

end ComponentDocs.PatternReader
