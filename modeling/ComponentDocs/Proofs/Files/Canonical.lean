import Mathlib.Data.List.Basic
import ComponentDocs.Fault

/-!
# Canonical paths

Every file that is read is known by a path that starts at the root and holds no double dots.  Such
a path is `Settled`: it does not depend on a current directory, and making it canonical once more
changes nothing.
-/

namespace ComponentDocs

/-- A path from the root without double dots. -/
structure Path.Settled (p : Path) : Prop where
  anchor_eq : p.anchor = .root
  no_dots : ".." ∉ p.segments

theorem Path.Settled.isAbsolute {p : Path} (hp : p.Settled) : p.isAbsolute := by
  simp [Path.isAbsolute, hp.anchor_eq]

namespace Path

private theorem dots_not_mem_foldl (segments done : List String) (hdone : ".." ∉ done) :
    ".." ∉ segments.foldl (fun done s => if s = ".." then done.dropLast else done ++ [s]) done := by
  induction segments generalizing done with
  | nil => exact hdone
  | cons s rest ih =>
      rw [List.foldl_cons]
      by_cases hs : s = ".."
      · rw [if_pos hs]
        exact ih _ fun hmem => hdone (List.dropLast_subset _ hmem)
      · rw [if_neg hs]
        exact ih _ (by simp [hdone, Ne.symm hs])

theorem dots_not_mem_resolveDots (segments : List String) : ".." ∉ resolveDots segments :=
  dots_not_mem_foldl segments [] (by simp)

private theorem foldl_eq_append {segments : List String} (hsegments : ".." ∉ segments)
    (done : List String) :
    segments.foldl (fun done s => if s = ".." then done.dropLast else done ++ [s]) done =
      done ++ segments := by
  induction segments generalizing done with
  | nil => simp
  | cons s rest ih =>
      simp only [List.mem_cons, not_or] at hsegments
      rw [List.foldl_cons, if_neg (Ne.symm hsegments.1), ih hsegments.2]
      simp

theorem resolveDots_of_not_mem {segments : List String} (hsegments : ".." ∉ segments) :
    resolveDots segments = segments :=
  foldl_eq_append hsegments []

/-- What resolving double dots leaves are segments that were there. -/
theorem mem_of_mem_resolveDots {segments : List String} {s : String}
    (hs : s ∈ resolveDots segments) : s ∈ segments := by
  have hfold : ∀ (segments done : List String),
      s ∈ segments.foldl (fun done s => if s = ".." then done.dropLast else done ++ [s]) done →
        s ∈ done ∨ s ∈ segments := by
    intro segments
    induction segments with
    | nil => exact fun done hmem => .inl hmem
    | cons t rest ih =>
        intro done hmem
        rcases ih _ hmem with hmem | hmem
        · dsimp only at hmem
          split at hmem
          · exact .inl (List.dropLast_subset _ hmem)
          · rw [List.mem_append, List.mem_singleton] at hmem
            exact hmem.imp_right fun hst => by simp [hst]
        · exact .inr (List.mem_cons_of_mem _ hmem)
  simpa using hfold segments [] hs

end Path

namespace FileSystem

variable {fs : FileSystem} {p q : Path}

theorem settled_resolve (fs : FileSystem) (p : Path) : (fs.resolve p).Settled :=
  ⟨rfl, Path.dots_not_mem_resolveDots _⟩

theorem settled_of_canonical (hq : fs.canonical p = .ok q) : q.Settled := by
  unfold canonical at hq
  split at hq
  · injection hq with hq
    exact hq ▸ settled_resolve _ _
  · cases hq

theorem absolute_of_settled (hp : p.Settled) : fs.absolute p = p := by
  simp [absolute, Path.join, hp.isAbsolute]

theorem resolve_of_settled (hp : p.Settled) : fs.resolve p = p := by
  rw [resolve, absolute_of_settled hp, Path.resolveDots_of_not_mem hp.no_dots, ← hp.anchor_eq]

/-- A path that is canonical stays as it is. -/
theorem canonical_of_settled (hp : p.Settled) : fs.canonical p = .ok p := by
  have hhome : fs.expandHome? p = some p := by
    unfold expandHome?
    rw [hp.anchor_eq]
  rw [canonical, hhome]
  exact congrArg Except.ok (resolve_of_settled hp)

end FileSystem

end ComponentDocs
