import Mathlib.Data.List.Basic

/-!
# Several results

A list of computations that can fail gives either the results of all of them or a failure.
-/

namespace ComponentDocs

variable {α β ε ε' : Type}

/-- A list of computations gives the results of all of them. -/
theorem mapM_eq_ok {f : α → Except ε β} {xs : List α} {ys : List β} :
    xs.mapM f = .ok ys ↔ xs.map f = ys.map .ok := by
  induction xs generalizing ys with
  | nil => cases ys <;> simp [pure, Except.pure]
  | cons x rest ih =>
      rw [List.mapM_cons, List.map_cons]
      cases hx : f x with
      | error e => cases ys <;> simp [bind, Except.bind]
      | ok first =>
          cases hrest : rest.mapM f with
          | error e =>
              have hnone (others : List β) : rest.map f ≠ others.map .ok := fun h => by
                simp [ih.mpr h] at hrest
              cases ys <;> simp [bind, Except.bind, hnone]
          | ok others =>
              cases ys with
              | nil => simp [bind, Except.bind, pure, Except.pure]
              | cons y more =>
                  have hothers : others = more ↔ rest.map f = more.map .ok := by
                    rw [← ih, hrest, Except.ok.injEq]
                  simp [bind, Except.bind, pure, Except.pure, hothers]

/-- A second computation that gives what the first one gives does so for a whole list. -/
theorem map_eq_map_ok_of_imp {f : α → Except ε β} {g : α → Except ε' β}
    (himp : ∀ x y, f x = .ok y → g x = .ok y) {xs : List α} {ys : List β}
    (hys : xs.map f = ys.map .ok) : xs.map g = ys.map .ok := by
  induction xs generalizing ys with
  | nil => cases ys <;> simp_all
  | cons x rest ih =>
      cases ys with
      | nil => simp at hys
      | cons y more =>
          rw [List.map_cons, List.map_cons, List.cons.injEq] at hys ⊢
          exact ⟨himp x y hys.1, ih hys.2⟩

theorem exists_of_map_eq_map_ok {f : α → Except ε β} {xs : List α} {ys : List β}
    (hys : xs.map f = ys.map .ok) {y : β} (hy : y ∈ ys) : ∃ x ∈ xs, f x = .ok y := by
  have hok : Except.ok y ∈ xs.map f := hys ▸ List.mem_map_of_mem hy
  exact List.mem_map.mp hok

theorem mem_of_map_eq_map_ok {f : α → Except ε β} {xs : List α} {ys : List β}
    (hys : xs.map f = ys.map .ok) {x : α} {y : β} (hx : x ∈ xs) (hy : f x = .ok y) : y ∈ ys := by
  have hok : f x ∈ xs.map f := List.mem_map_of_mem hx
  rw [hys, hy] at hok
  simpa using hok

end ComponentDocs
