import ComponentDocs.Proofs.Files.Agreement

/-!
# Where a path leads

Resolving the double dots of a path changes its text but not where it leads: an absolute path that
leads to an entry leads to the same one by its canonical path (`lookup_resolve`).  That one passes
through no directories but those on the way to the entry, and its text is no longer.  So what is
found as a file under an absolute path can be read under its canonical path
(`exists_read_resolve`).
-/

namespace ComponentDocs

/-! ## Canonical paths are no longer -/

namespace Path

/-- Resolving double dots leaves some of the segments, in their order. -/
theorem resolveDots_sublist (segments : List String) :
    (resolveDots segments).Sublist segments := by
  have hfold : ∀ rest done before : List String, done.Sublist before →
      (rest.foldl (fun done s => if s = ".." then done.dropLast else done ++ [s]) done).Sublist
        (before ++ rest) := by
    intro rest
    induction rest with
    | nil => exact fun done before hdone => by simpa using hdone
    | cons s rest ih =>
        intro done before hdone
        have hstep : (if s = ".." then done.dropLast else done ++ [s]).Sublist (before ++ [s]) := by
          split
          · exact (done.dropLast_sublist.trans hdone).trans (List.sublist_append_left _ _)
          · exact hdone.append_right [s]
        simpa using ih _ _ hstep
  exact hfold segments [] [] (List.nil_sublist [])

/-- The text of some segments is no longer than that of all of them. -/
theorem utf8ByteSize_intercalate_le {few many : List String} (hfew : few.Sublist many) :
    ("/".intercalate few).utf8ByteSize ≤ ("/".intercalate many).utf8ByteSize := by
  -- a segment in front takes its own bytes, and one for a slash if others follow
  have hcons (s : String) (rest : List String) : ("/".intercalate (s :: rest)).utf8ByteSize =
      s.utf8ByteSize + if rest = [] then 0 else 1 + ("/".intercalate rest).utf8ByteSize := by
    cases rest with
    | nil => simp
    | cons t rest =>
        rw [String.intercalate_cons_cons, String.utf8ByteSize_append, String.utf8ByteSize_append,
          if_neg (List.cons_ne_nil _ _), Nat.add_assoc]
        rfl
  induction hfew with
  | slnil => exact Nat.le_refl _
  | @cons few many s _ ih =>
      rw [hcons]
      split
      · next hnone => simpa [hnone] using Nat.le_add_left_of_le ih
      · omega
  | @cons_cons few many s hrest ih =>
      rw [hcons, hcons]
      by_cases hfew : few = []
      · simp [hfew]
      · have hmany : many ≠ [] := fun hnone => hfew (List.sublist_nil.mp (hnone ▸ hrest))
        rw [if_neg hfew, if_neg hmany]
        omega

end Path

/-! ## The same entry -/

namespace Entry

variable {top here : Entry} {above : List Entry} {place : List String}

/-- Names that can be followed one by one from the top. -/
def Followable (place : List String) : Prop :=
  ∀ name ∈ place, name ≠ ".." ∧ name.utf8ByteSize ≤ nameLimit

/-- Following a place from the top comes to where its names have led. -/
theorem Reached.follow_append (hreached : Reached top place above here)
    (hplace : Followable place) (rest : List String) :
    follow [] top (place ++ rest) = follow above here rest := by
  induction hreached generalizing rest with
  | start => rfl
  | @child place above here below name _ hbelow ih =>
      have hname := hplace name (by simp)
      rw [List.append_assoc, List.singleton_append,
        ih (fun other hother => hplace other (List.mem_append_left _ hother))]
      cases here with
      | file content time => cases hbelow
      | directory time children =>
          have hlookup : children.lookup name = some below := hbelow
          rw [follow.eq_def]
          simp only [if_neg hname.1, if_neg (Nat.not_lt.mpr hname.2), hlookup]

/-- Following segments leads where following them without their double dots does. -/
theorem Reached.follow_foldl (hreached : Reached top place above here)
    (hplace : Followable place) {segments : List String} {e : Entry}
    (hfollow : follow above here segments = .ok e) :
    follow [] top (segments.foldl Path.step place) = .ok e := by
  induction segments generalizing place above here with
  | nil =>
      have hend := hreached.follow_append hplace []
      rw [List.append_nil] at hend
      rw [List.foldl_nil, hend, hfollow]
  | cons segment rest ih =>
      rw [List.foldl_cons, Path.step]
      cases here with
      | file content time => simp [follow] at hfollow
      | directory time children =>
          rw [follow.eq_def] at hfollow
          dsimp only at hfollow
          by_cases hdots : segment = ".."
          · rw [if_pos hdots] at hfollow ⊢
            have hup : Followable place.dropLast :=
              fun name hname => hplace name (List.dropLast_subset _ hname)
            cases above with
            | nil =>
                -- at the top a double dot leads nowhere else
                obtain ⟨rfl, rfl⟩ := hreached.eq_start
                exact ih .start hup hfollow
            | cons up more => exact ih hreached.up hup hfollow
          · rw [if_neg hdots] at hfollow ⊢
            split at hfollow
            · cases hfollow
            · next hlimit =>
                split at hfollow
                · next below hbelow =>
                    refine ih (hreached.child hbelow) (fun name hname => ?_) hfollow
                    rcases List.mem_append.mp hname with hname | hname
                    · exact hplace name hname
                    · rw [List.mem_singleton.mp hname]
                      exact ⟨hdots, Nat.not_lt.mp hlimit⟩
                · cases hfollow

end Entry

namespace FileSystem

variable {fs : FileSystem} {p : Path}

theorem absolute_of_isAbsolute (hp : p.isAbsolute) : fs.absolute p = p := by
  simp [absolute, Path.join, hp]

theorem utf8ByteSize_resolve_le (hp : p.isAbsolute) :
    (fs.resolve p).toString.utf8ByteSize ≤ p.toString.utf8ByteSize := by
  have hsegments := Path.utf8ByteSize_intercalate_le (Path.resolveDots_sublist p.segments)
  have hresolve : fs.resolve p = ⟨.root, Path.resolveDots p.segments⟩ := by
    rw [resolve, absolute_of_isAbsolute hp]
  rw [hresolve]
  obtain ⟨anchor, segments⟩ := p
  cases anchor with
  | relative => simp [Path.isAbsolute] at hp
  | root =>
      simp only [Path.toString, String.utf8ByteSize_append]
      exact Nat.add_le_add_left hsegments _
  | doubleRoot =>
      have hanchor : Anchor.root.text.utf8ByteSize ≤ Anchor.doubleRoot.text.utf8ByteSize := by
        decide
      simp only [Path.toString, String.utf8ByteSize_append]
      exact Nat.add_le_add hanchor hsegments

/-- **An absolute path leads to the same entry by its canonical path.** -/
theorem lookup_resolve (hp : p.isAbsolute) {e : Entry} (he : fs.lookup p = .ok e) :
    fs.lookup (fs.resolve p) = .ok e := by
  rw [lookup] at he ⊢
  split at he
  · cases he
  · next hlimit =>
      have hlength : (fs.resolve p).toString.utf8ByteSize ≤ p.toString.utf8ByteSize :=
        utf8ByteSize_resolve_le hp
      rw [if_neg (by omega), absolute_of_settled (settled_resolve fs p), resolve,
        absolute_of_isAbsolute hp]
      rw [absolute_of_isAbsolute hp] at he
      exact Entry.Reached.start.follow_foldl (fun _ hname => absurd hname List.not_mem_nil) he

/-! ## Files that are found -/

/-- The path that leads to a file first is one of those that were given. -/
theorem of_firstFile_eq_some {paths : List Path}
    (hfound : fs.firstFile paths = .ok (some p)) : p ∈ paths ∧ fs.isFile p = .ok true := by
  induction paths with
  | nil => cases hfound
  | cons path rest ih =>
      rw [firstFile] at hfound
      split at hfound
      · cases hfound
      · next hfile =>
          cases hfound
          exact ⟨List.mem_cons_self, hfile⟩
      · obtain ⟨hmem, hfile⟩ := ih hfound
        exact ⟨List.mem_cons_of_mem _ hmem, hfile⟩

/-- What is found as a file can be read under its canonical path. -/
theorem exists_read_resolve (hp : p.isAbsolute) (hfile : fs.isFile p = .ok true) :
    ∃ source, fs.read (fs.resolve p) = .ok source := by
  unfold isFile entry? at hfile
  cases hlookup : fs.lookup p with
  | error problem => cases problem <;> simp [hlookup, bind, Except.bind, pure, Except.pure] at hfile
  | ok e =>
      cases e with
      | directory time children => simp [hlookup, bind, Except.bind, pure, Except.pure] at hfile
      | file source time =>
          refine ⟨source, ?_⟩
          rw [read, lookup_resolve hp hlookup]

end FileSystem

end ComponentDocs
