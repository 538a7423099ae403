import Mathlib.Algebra.Order.BigOperators.Group.List
import Mathlib.Algebra.Order.Ring.Nat
import Mathlib.Data.List.Perm.Subperm
import ComponentDocs.Extraction.Inheritance
import ComponentDocs.Proofs.Extraction.View
import ComponentDocs.Proofs.Files.Inventory

/-!
# How many declarations there are

A walk through declarations is bounded by `declarationBound`, a number read off the sizes of the
files.  Here that number is shown to be large enough: declarations that a project shows, no two of
them the same, are never more than the bound (`length_le_declarationBound`).  The reason is that a
statement takes at least one character of its file.
-/

namespace ComponentDocs

/-! ## Declarations of one file -/

namespace Text

private theorem length_readAfter_le (skip : ℕ) (bytes : List UInt8) :
    (readAfter skip bytes).length ≤ bytes.length := by
  fun_induction readAfter skip bytes with
  | case1 => exact le_rfl
  | case2 skip b rest ih => exact ih.trans (Nat.le_succ _)
  | case3 a rest c n _ ih => simpa using ih
  | case4 a rest _ ih => simpa using ih

theorem length_readLenient_le (bytes : List UInt8) : (readLenient bytes).length ≤ bytes.length :=
  (List.length_filterMap_le _ _).trans (length_readAfter_le 0 bytes)

end Text

namespace Source

private theorem Reader.length_manyWith_le {α : Type} (p : Reader α) (rounds : ℕ) (here : Cursor)
    {found : List α} {there : Cursor} (hread : manyWith p rounds here = some (found, there)) :
    found.length ≤ rounds := by
  induction rounds generalizing here found there with
  | zero =>
      injection hread with hread
      injection hread with hread
      simp [← hread]
  | succ rounds ih =>
      rw [manyWith] at hread
      dsimp only at hread
      split at hread
      · injection hread with hread
        injection hread with hread
        simp [← hread]
      · next a next hnext =>
          split at hread
          · cases hrest : manyWith p rounds next with
            | none => simp [hrest] at hread
            | some rest =>
                obtain ⟨as, last⟩ := rest
                simp only [hrest, Option.map_some, Option.some.injEq, Prod.mk.injEq] at hread
                rw [← hread.1, List.length_cons]
                exact Nat.succ_le_succ (ih next hrest)
          · injection hread with hread
            injection hread with hread
            simp [← hread]

private theorem length_withoutInterpreter_le (cs : List Char) :
    (withoutInterpreter cs).length ≤ cs.length := by
  unfold withoutInterpreter
  split
  · exact (List.dropWhile_sublist _).length_le
  · exact le_rfl

/-- A statement takes at least one character; one more may be read at the end. -/
theorem Module.length_statements_le (elements : Bool) (text : String) :
    (Module.ofText elements text).statements.length ≤ text.toList.length + 1 := by
  unfold Module.ofText
  dsimp only
  split
  · next statements last hread =>
      refine le_trans ?_ (Nat.succ_le_succ (length_withoutInterpreter_le text.toList))
      obtain ⟨⟨found, place⟩, hfound, hstatements⟩ := Option.bind_eq_some_iff.mp hread
      injection hstatements with hstatements
      injection hstatements with hstatements
      dsimp only
      rw [← hstatements]
      exact (List.length_filterMap_le _ _).trans (Reader.length_manyWith_le _ _ _ hfound)
  · simp

theorem ParsedFile.length_declarations_le (file : ParsedFile) :
    file.declarations.length ≤ file.source.length + 1 := by
  unfold declarations definitions
  refine (List.length_filterMap_le _ _).trans ((List.length_filterMap_le _ _).trans ?_)
  rw [file.module_eq, readModule]
  refine (Module.length_statements_le _ _).trans (Nat.succ_le_succ ?_)
  rw [String.toList_ofList]
  exact Text.length_readLenient_le file.source

end Source

/-! ## Declarations of all files -/

namespace Extraction

open Source Project

variable {P : Project} {fs : FileSystem}

/-- The files that a project can show: those it has read, and all that are on disk. -/
def filesInSight (P : Project) (fs : FileSystem) : List ParsedFile :=
  P.files ++ fs.top.files.map fun file => .ofSource ⟨.root, file.1⟩ file.2

/-- The declarations that a project shows, by their keys. -/
def keysInSight (P : Project) (fs : FileSystem) : List DeclarationKey :=
  (filesInSight P fs).flatMap fun file => file.declarations.map fun d => (file.path, d.name)

theorem mem_filesInSight {path : Path} {file : ParsedFile} (hpath : path.Settled)
    (hfile : P.fileAt fs path = .ok file) : file ∈ filesInSight P fs := by
  rw [filesInSight, List.mem_append]
  unfold fileAt at hfile
  split at hfile
  · next kept hkept =>
      injection hfile with hfile
      exact .inl (hfile ▸ List.mem_of_find?_eq_some hkept)
  · split at hfile
    · next source hread =>
        injection hfile with hfile
        refine .inr (List.mem_map.mpr ⟨_, FileSystem.mem_files_of_read hpath hread, ?_⟩)
        rw [← hfile, ← hpath.anchor_eq]
    · cases hfile

theorem mem_keysInSight {path : Path} {file : ParsedFile} {declaration : Declaration}
    {name : String} (hpath : path.Settled) (hfile : P.fileAt fs path = .ok file)
    (hdeclaration : file.declaration? name = some declaration) :
    (path, name) ∈ keysInSight P fs := by
  have hname : declaration.name = name := by simpa using List.find?_some hdeclaration
  refine List.mem_flatMap.mpr ⟨file, mem_filesInSight hpath hfile, List.mem_map.mpr ?_⟩
  exact ⟨declaration, List.mem_of_find?_eq_some hdeclaration, by
    rw [hname, path_of_fileAt hfile]⟩

private theorem foldl_add_eq (files : List ParsedFile) (n : ℕ) :
    files.foldl (fun n file => n + (file.source.length + 2)) n =
      n + (files.map fun file => file.source.length + 2).sum := by
  induction files generalizing n with
  | nil => simp
  | cons file rest ih => rw [List.foldl_cons, ih, List.map_cons, List.sum_cons, Nat.add_assoc]

private theorem declarationBound_eq_sum (P : Project) (fs : FileSystem) :
    declarationBound fs P = ((filesInSight P fs).map fun file => file.source.length + 2).sum := by
  rw [declarationBound, foldl_add_eq, ← Entry.sum_files_eq_weight, filesInSight, List.map_append,
    List.sum_append, List.map_map, Nat.add_comm]
  rfl

theorem length_keysInSight_le (P : Project) (fs : FileSystem) :
    (keysInSight P fs).length ≤ declarationBound fs P := by
  rw [declarationBound_eq_sum, keysInSight, List.length_flatMap]
  refine List.sum_le_sum fun file _ => ?_
  rw [List.length_map]
  exact file.length_declarations_le.trans (Nat.le_succ _)

/-- **Different declarations that a project shows are never more than the bound.** -/
theorem length_le_declarationBound {keys : List DeclarationKey} (hnodup : keys.Nodup)
    (hkeys : keys ⊆ keysInSight P fs) : keys.length ≤ declarationBound fs P :=
  (List.subperm_of_subset hnodup hkeys).length_le.trans (length_keysInSight_le P fs)

end Extraction

end ComponentDocs
