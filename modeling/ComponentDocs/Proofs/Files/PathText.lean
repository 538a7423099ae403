import Mathlib.Data.List.Basic
import ComponentDocs.Path

/-!
# Paths as text

A path that was read from a text holds proper segments only: none is empty, a single dot or holds
a slash.  Such a path is determined by the text that it is written as (`ofString_toString`), so a
text can stand for it as a key.
-/

namespace ComponentDocs.Path

/-- Whether a text can be a segment of a path. -/
def isSegment (s : String) : Bool :=
  !s.toList.isEmpty && s.toList != ['.'] && !s.toList.contains '/'

/-- Whether all segments of a path are proper ones. -/
def WellFormed (p : Path) : Prop := ∀ s ∈ p.segments, isSegment s

theorem slash_not_mem_of_isSegment {s : String} (hs : isSegment s) : '/' ∉ s.toList := by
  simp only [isSegment, Bool.and_eq_true, Bool.not_eq_true', List.contains_eq_mem,
    decide_eq_false_iff_not] at hs
  exact hs.2

/-! ## Splitting at slashes -/

private theorem slash_not_mem_splitSlashes {current cs : List Char} (hcurrent : '/' ∉ current) :
    ∀ run ∈ splitSlashes current cs, '/' ∉ run := by
  fun_induction splitSlashes current cs with
  | case1 current => simpa using hcurrent
  | case2 current rest ih => simpa using ⟨hcurrent, ih List.not_mem_nil⟩
  | case3 current c rest hslash ih => exact ih (by simp [hcurrent, Ne.symm hslash])

private theorem splitSlashes_append {run : List Char} (hrun : '/' ∉ run)
    (current rest : List Char) :
    splitSlashes current (run ++ rest) = splitSlashes (run.reverse ++ current) rest := by
  induction run generalizing current with
  | nil => rfl
  | cons c run ih =>
      simp only [List.mem_cons, not_or] at hrun
      rw [List.cons_append, splitSlashes, ih hrun.2, List.reverse_cons, List.append_assoc]
      · rfl
      · exact Ne.symm hrun.1

private theorem splitSlashes_intercalate {runs : List (List Char)}
    (hruns : ∀ run ∈ runs, '/' ∉ run) (hne : runs ≠ []) :
    splitSlashes [] (['/'].intercalate runs) = runs := by
  induction runs with
  | nil => exact absurd rfl hne
  | cons run rest ih =>
      obtain ⟨hrun, hrest⟩ := List.forall_mem_cons.mp hruns
      cases rest with
      | nil =>
          have := splitSlashes_append hrun [] []
          simpa [List.intercalate, splitSlashes] using this
      | cons next rest =>
          have hsplit := splitSlashes_append hrun [] ('/' :: ['/'].intercalate (next :: rest))
          rw [List.intercalate_cons_cons, List.append_assoc, List.singleton_append, hsplit,
            splitSlashes, ih hrest (by simp)]
          simp

@[simp] theorem segmentsOf_slash (cs : List Char) : segmentsOf ('/' :: cs) = segmentsOf cs := rfl

theorem segmentsOf_intercalate {segments : List String} (hsegments : ∀ s ∈ segments, isSegment s) :
    segmentsOf ("/".intercalate segments).toList = segments := by
  cases segments with
  | nil => rfl
  | cons first rest =>
      have hruns : ∀ run ∈ (first :: rest).map String.toList, isSegment (.ofList run) := by
        intro run hrun
        obtain ⟨s, hs, rfl⟩ := List.mem_map.mp hrun
        rw [String.ofList_toList]
        exact hsegments s hs
      have hslash : ∀ run ∈ (first :: rest).map String.toList, '/' ∉ run := fun run hrun => by
        simpa using slash_not_mem_of_isSegment (hruns run hrun)
      rw [segmentsOf, String.toList_intercalate]
      change ((splitSlashes [] (['/'].intercalate _)).filter _).map _ = _
      rw [splitSlashes_intercalate hslash (by simp), List.filter_eq_self.mpr, List.map_map]
      · simp
      · intro run hrun
        have := hruns run hrun
        simp only [isSegment, String.toList_ofList, Bool.and_eq_true] at this
        simpa using this.1

private theorem intercalate_append (before : List String) (s t : String) :
    "/".intercalate (before ++ [s ++ t]) = "/".intercalate (before ++ [s]) ++ t := by
  rw [← String.toList_inj, String.toList_append, String.toList_intercalate,
    String.toList_intercalate, List.map_append, List.map_append, List.map_singleton,
    List.map_singleton, String.toList_append]
  generalize before.map String.toList = runs
  induction runs with
  | nil => simp [List.intercalate]
  | cons run rest ih =>
      cases rest with
      | nil => simp [List.intercalate]
      | cons next rest =>
          simp only [List.cons_append, List.intercalate_cons_cons, List.append_assoc] at ih ⊢
          rw [ih]

theorem toString_child (p : Path) (name : String) :
    (p.child name).toString = p.anchor.text ++ "/".intercalate (p.segments ++ [name]) := by
  obtain ⟨anchor, segments⟩ := p
  unfold toString child
  cases anchor <;> cases segments <;> rfl

/-- A longer name makes a longer text. -/
theorem toString_child_append (p : Path) (name ending : String) :
    (p.child (name ++ ending)).toString = (p.child name).toString ++ ending := by
  rw [toString_child, toString_child, intercalate_append, String.append_assoc]

/-! ## Reading and writing -/

theorem wellFormed_ofString (s : String) : (ofString s).WellFormed := by
  intro segment hsegment
  obtain ⟨run, hrun, rfl⟩ := List.mem_map.mp hsegment
  obtain ⟨hrun, hkept⟩ := List.mem_filter.mp hrun
  have hslash := slash_not_mem_splitSlashes List.not_mem_nil run hrun
  simp only [isSegment, String.toList_ofList, hkept, Bool.true_and]
  simpa using hslash

private theorem anchorOf_append {cs : List Char} (hcs : cs.head? ≠ some '/') (anchor : Anchor) :
    anchorOf (anchor.text.toList ++ cs) = anchor := by
  cases cs with
  | nil => cases anchor <;> rfl
  | cons c rest =>
      have hc : c ≠ '/' := by simpa using hcs
      cases anchor with
      | relative => simp [Anchor.text, anchorOf, hc]
      | root => simp [Anchor.text, anchorOf, hc]
      | doubleRoot => simp [Anchor.text, anchorOf, hc]

private theorem head?_intercalate {segments : List String}
    (hsegments : ∀ s ∈ segments, isSegment s) :
    ("/".intercalate segments).toList.head? ≠ some '/' := by
  cases segments with
  | nil => simp
  | cons first rest =>
      have hfirst := hsegments first List.mem_cons_self
      have hslash := slash_not_mem_of_isSegment hfirst
      simp only [isSegment, Bool.and_eq_true, Bool.not_eq_true'] at hfirst
      rw [String.toList_intercalate, List.map_cons]
      cases hchars : first.toList with
      | nil => simp [hchars] at hfirst
      | cons c cs =>
          have hc : c ≠ '/' := fun heq => hslash (by simp [hchars, heq])
          cases rest <;> simpa [List.intercalate] using hc

/-- **A path is read back from the text that it is written as.** -/
theorem ofString_toString {p : Path} (hp : p.WellFormed) : ofString p.toString = p := by
  obtain ⟨anchor, segments⟩ := p
  have hsegments : segmentsOf (anchor.text ++ "/".intercalate segments).toList = segments := by
    have := segmentsOf_intercalate hp
    cases anchor <;> simpa [Anchor.text] using this
  have hanchor : anchorOf (anchor.text ++ "/".intercalate segments).toList = anchor := by
    rw [String.toList_append]
    exact anchorOf_append (head?_intercalate hp) anchor
  unfold toString
  split
  · next heq₁ heq₂ =>
      cases heq₁
      cases heq₂
      rfl
  · exact congrArg₂ Path.mk hanchor hsegments

/-- Different paths are written differently. -/
theorem toString_inj {p q : Path} (hp : p.WellFormed) (hq : q.WellFormed) :
    p.toString = q.toString ↔ p = q :=
  ⟨fun h => by rw [← ofString_toString hp, h, ofString_toString hq], congrArg toString⟩

end ComponentDocs.Path
