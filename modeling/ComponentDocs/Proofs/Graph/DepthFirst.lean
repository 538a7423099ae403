import Mathlib.Data.List.Basic
import Mathlib.Logic.Relation

/-!
# Depth-first preorder

The order in which a walk through a directed graph meets its nodes, each node followed by what its
successors lead to and no node twice.  `DepthFirst` states this order without saying how a walk
keeps track of it: `todo` are the nodes still to look at, the next one first, and `seen` those that
are not to be listed again.

The main statement is `DepthFirst.mem_iff_reaches`: a walk from one node lists exactly what can be
reached from it.
-/

namespace ComponentDocs.Graph

variable {α : Type*} {next : α → List α}

/-- `DepthFirst next seen todo order`: walking from the nodes of `todo` in order, past the nodes of
`seen`, lists the nodes of `order`. -/
inductive DepthFirst (next : α → List α) : List α → List α → List α → Prop
  | done (seen : List α) : DepthFirst next seen [] []
  | skip {seen rest order : List α} {a : α} (hseen : a ∈ seen)
      (hrest : DepthFirst next seen rest order) : DepthFirst next seen (a :: rest) order
  | visit {seen rest order : List α} {a : α} (hnew : a ∉ seen)
      (hrest : DepthFirst next (seen ++ [a]) (next a ++ rest) order) :
      DepthFirst next seen (a :: rest) (a :: order)

/-- Whether the second node can be reached from the first. -/
abbrev Reaches (next : α → List α) : α → α → Prop :=
  Relation.ReflTransGen fun a b => b ∈ next a

namespace DepthFirst

variable {seen todo order : List α}

/-! ## Walks one after the other -/

/-- A walk from two lists of nodes is one from the first, then one from the second that passes
over what the first has listed. -/
theorem append {more further : List α} (hfirst : DepthFirst next seen todo order)
    (hsecond : DepthFirst next (seen ++ order) more further) :
    DepthFirst next seen (todo ++ more) (order ++ further) := by
  induction hfirst with
  | done seen => simpa using hsecond
  | skip hseen _ ih => exact .skip hseen (ih hsecond)
  | @visit seen rest order a hnew _ ih =>
      have hrest := ih (by simpa using hsecond)
      rw [List.append_assoc] at hrest
      exact .visit hnew hrest

/-- One walk has one order. -/
theorem unique {other : List α} (hfirst : DepthFirst next seen todo order)
    (hsecond : DepthFirst next seen todo other) : order = other := by
  induction hfirst generalizing other with
  | done seen =>
      cases hsecond
      rfl
  | skip hseen _ ih =>
      cases hsecond with
      | skip _ hrest => exact ih hrest
      | visit hnew _ => exact absurd hseen hnew
  | visit hnew _ ih =>
      cases hsecond with
      | skip hseen _ => exact absurd hseen hnew
      | visit _ hrest => rw [ih hrest]

/-! ## What a walk lists -/

theorem disjoint (hwalk : DepthFirst next seen todo order) : ∀ a ∈ order, a ∉ seen := by
  induction hwalk with
  | done seen => simp
  | skip _ _ ih => exact ih
  | visit hnew _ ih =>
      intro b hb
      rcases List.mem_cons.mp hb with rfl | hb
      · exact hnew
      · exact fun hseen => ih b hb (List.mem_append_left _ hseen)

theorem nodup (hwalk : DepthFirst next seen todo order) : order.Nodup := by
  induction hwalk with
  | done seen => exact List.nodup_nil
  | skip _ _ ih => exact ih
  | @visit seen rest order a hnew hrest ih =>
      refine List.nodup_cons.mpr ⟨fun ha => ?_, ih⟩
      exact hrest.disjoint a ha (by simp)

/-- Nothing that is still to look at gets lost. -/
theorem covers (hwalk : DepthFirst next seen todo order) :
    ∀ a ∈ todo, a ∈ seen ∨ a ∈ order := by
  induction hwalk with
  | done seen => simp
  | skip hseen _ ih =>
      intro b hb
      rcases List.mem_cons.mp hb with rfl | hb
      · exact .inl hseen
      · exact ih b hb
  | visit hnew _ ih =>
      intro b hb
      rcases List.mem_cons.mp hb with rfl | hb
      · exact .inr List.mem_cons_self
      · have := ih b (List.mem_append_right _ hb)
        simp only [List.mem_append, List.mem_cons] at this ⊢
        tauto

/-- The successors of what is listed are listed too, unless they were seen before. -/
theorem closed (hwalk : DepthFirst next seen todo order) :
    ∀ a ∈ order, ∀ b ∈ next a, b ∈ seen ∨ b ∈ order := by
  induction hwalk with
  | done seen => simp
  | skip _ _ ih => exact ih
  | @visit seen rest order a hnew hrest ih =>
      intro c hc b hb
      have : b ∈ seen ++ [a] ∨ b ∈ order := by
        rcases List.mem_cons.mp hc with rfl | hc
        · exact hrest.covers b (List.mem_append_left _ hb)
        · exact ih c hc b hb
      simp only [List.mem_append, List.mem_cons] at this ⊢
      tauto

/-- What is listed can be reached from a node that was to look at. -/
theorem reached (hwalk : DepthFirst next seen todo order) :
    ∀ a ∈ order, ∃ root ∈ todo, Reaches next root a := by
  induction hwalk with
  | done seen => simp
  | skip _ _ ih =>
      intro b hb
      obtain ⟨root, hroot, hreach⟩ := ih b hb
      exact ⟨root, List.mem_cons_of_mem _ hroot, hreach⟩
  | @visit seen rest order a hnew _ ih =>
      intro b hb
      rcases List.mem_cons.mp hb with rfl | hb
      · exact ⟨b, List.mem_cons_self, .refl⟩
      · obtain ⟨root, hroot, hreach⟩ := ih b hb
        rcases List.mem_append.mp hroot with hroot | hroot
        · exact ⟨a, List.mem_cons_self, .head hroot hreach⟩
        · exact ⟨root, List.mem_cons_of_mem _ hroot, hreach⟩

/-- **A walk from one node lists exactly what can be reached from it.** -/
theorem mem_iff_reaches {root : α} (hwalk : DepthFirst next [] [root] order) (a : α) :
    a ∈ order ↔ Reaches next root a := by
  constructor
  · intro ha
    obtain ⟨start, hstart, hreach⟩ := hwalk.reached a ha
    rwa [List.mem_singleton.mp hstart] at hreach
  · intro hreach
    induction hreach with
    | refl => simpa using hwalk.covers root (by simp)
    | tail _ hstep ih => simpa using hwalk.closed _ ih _ hstep

end DepthFirst

end ComponentDocs.Graph
