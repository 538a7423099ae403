import ComponentDocs.Proofs.Files.Canonical

/-!
# Files that agree

Two file systems agree apart from some paths if they show the same everywhere else: the same
directories, and the same files with the same bytes and times.  Looking up a path goes by no more
than what stands at the places that it passes through, one for each of its segments, so it gives the
same in both if it passes by those paths (`AgreeApart.lookup_eq`).
-/

namespace ComponentDocs

/-! ## Places -/

/-- The place that a segment leads to from another place. -/
def Path.step (place : List String) (segment : String) : List String :=
  if segment = ".." then place.dropLast else place ++ [segment]

private theorem prefix_of_mem_scanl {segments place p : List String} (hdots : ".." ∉ segments)
    (hp : p ∈ segments.scanl Path.step place) : p <+: place ++ segments := by
  induction segments generalizing place with
  | nil =>
      rw [List.scanl_nil, List.mem_singleton] at hp
      rw [hp]
      exact List.prefix_append _ _
  | cons segment rest ih =>
      rw [List.mem_cons, not_or] at hdots
      rw [List.scanl_cons, List.mem_cons] at hp
      rcases hp with rfl | hp
      · exact List.prefix_append _ _
      · rw [Path.step, if_neg (Ne.symm hdots.1)] at hp
        have habove := ih hdots.2 hp
        rwa [List.append_assoc] at habove

private theorem foldl_mem_scanl {α β : Type} (f : α → β → α) (start : α) (xs : List β) :
    xs.foldl f start ∈ xs.scanl f start := by
  induction xs generalizing start with
  | nil => simp
  | cons x rest ih =>
      rw [List.scanl_cons]
      exact List.mem_cons_of_mem _ (ih (f start x))

namespace Entry

/-- The entry at a place below another one. -/
def at? : List String → Entry → Option Entry
  | [], here => some here
  | name :: rest, here => (here.child? name).bind (at? rest)

/-- What an entry shows without those below it: the bytes of a file, and the time. -/
def surface : Entry → Option (List UInt8) × Int
  | file content time => (some content, time)
  | directory time _ => (none, time)

theorem at?_append_append (place more : List String) (top : Entry) :
    top.at? (place ++ more) = (top.at? place).bind (at? more) := by
  induction place generalizing top with
  | nil => rfl
  | cons name rest ih =>
      show (top.child? name).bind (at? (rest ++ more)) =
        ((top.child? name).bind (at? rest)).bind (at? more)
      cases top.child? name with
      | none => rfl
      | some below => exact ih below

theorem at?_append (place : List String) (name : String) (top : Entry) :
    top.at? (place ++ [name]) = (top.at? place).bind (child? name) := by
  rw [at?_append_append]
  refine congrArg (top.at? place).bind (funext fun here => ?_)
  show (here.child? name).bind some = here.child? name
  exact Option.bind_fun_some _

/-- Following names from the top leads to a place, with an entry there and those above it. -/
inductive Reached (top : Entry) : List String → List Entry → Entry → Prop where
  | start : Reached top [] [] top
  | child {place : List String} {above : List Entry} {here below : Entry} {name : String} :
      Reached top place above here → here.child? name = some below →
        Reached top (place ++ [name]) (here :: above) below

namespace Reached

variable {top here : Entry} {place : List String} {above : List Entry}

theorem at?_eq (hreached : Reached top place above here) : top.at? place = some here := by
  induction hreached with
  | start => rfl
  | child _ hbelow ih => rw [at?_append, ih, Option.bind_some, hbelow]

theorem up {upper : Entry} (hreached : Reached top place (upper :: above) here) :
    Reached top place.dropLast above upper := by
  cases hreached with
  | child hupper _ =>
      rw [List.dropLast_concat]
      exact hupper

theorem eq_start (hreached : Reached top place [] here) : place = [] ∧ here = top := by
  cases hreached
  exact ⟨rfl, rfl⟩

end Reached

/-- What following segments shows, found out by looking at one place after the other. -/
def view (top : Entry) : List String → List String → Except FileProblem (Option (List UInt8) × Int)
  | place, [] =>
    match (top.at? place).map surface with
    | none => .error .missing
    | some shown => .ok shown
  | place, segment :: rest =>
    match (top.at? place).map surface with
    | none => .error .missing
    | some (some _, _) => .error .notDirectory
    | some (none, _) =>
      if segment = ".." then view top place.dropLast rest
      else if nameLimit < segment.utf8ByteSize then .error .nameTooLong
      else view top (place ++ [segment]) rest

theorem view_cons (top : Entry) (place : List String) (segment : String) (rest : List String) :
    view top place (segment :: rest) =
      match (top.at? place).map surface with
      | none => .error .missing
      | some (some _, _) => .error .notDirectory
      | some (none, _) =>
        if segment = ".." then view top place.dropLast rest
        else if nameLimit < segment.utf8ByteSize then .error .nameTooLong
        else view top (place ++ [segment]) rest := by
  rw [view]

theorem follow_eq_view {top : Entry} {segments place : List String} {above : List Entry}
    {here : Entry} (hhere : Reached top place above here) :
    (follow above here segments).map surface = view top place segments := by
  induction segments generalizing place above here with
  | nil =>
      rw [view, hhere.at?_eq]
      rfl
  | cons segment rest ih =>
      rw [view, hhere.at?_eq]
      cases here with
      | file content time => rfl
      | directory time children =>
          rw [follow.eq_def]
          dsimp only [Option.map_some, surface]
          by_cases hdots : segment = ".."
          · rw [if_pos hdots, if_pos hdots]
            cases above with
            | nil =>
                -- at the top a double dot leads nowhere else
                obtain ⟨rfl, rfl⟩ := hhere.eq_start
                exact ih .start
            | cons up more => exact ih hhere.up
          · rw [if_neg hdots, if_neg hdots]
            by_cases hlimit : nameLimit < segment.utf8ByteSize
            · rw [if_pos hlimit, if_pos hlimit]
              rfl
            · rw [if_neg hlimit, if_neg hlimit]
              cases hbelow : children.lookup segment with
              | some below => exact ih (hhere.child hbelow)
              | none =>
                  have hmissing : top.at? (place ++ [segment]) = none := by
                    rw [at?_append, hhere.at?_eq]
                    exact hbelow
                  cases rest <;> rw [view, hmissing] <;> rfl

theorem view_congr {top other : Entry} {segments place : List String}
    (hsame : ∀ p ∈ segments.scanl Path.step place,
      (top.at? p).map surface = (other.at? p).map surface) :
    view top place segments = view other place segments := by
  induction segments generalizing place with
  | nil =>
      rw [view, view, hsame place (by simp)]
  | cons segment rest ih =>
      rw [List.scanl_cons, List.forall_mem_cons] at hsame
      obtain ⟨hplace, hrest⟩ := hsame
      rw [view_cons, view_cons, hplace]
      by_cases hdots : segment = ".."
      · rw [Path.step, if_pos hdots] at hrest
        rw [if_pos hdots, if_pos hdots, ih hrest]
      · rw [Path.step, if_neg hdots] at hrest
        rw [if_neg hdots, if_neg hdots, ih hrest]

/-- Whether a name on the way is too long shows before its own place is looked at. -/
theorem view_eq_nameTooLong_iff {top other : Entry} {segments place : List String} {last : String}
    (hsame : ∀ p ∈ segments.scanl Path.step place,
      (top.at? p).map surface = (other.at? p).map surface) :
    view top place (segments ++ [last]) = .error .nameTooLong ↔
      view other place (segments ++ [last]) = .error .nameTooLong := by
  induction segments generalizing place with
  | nil =>
      have hend (e : Entry) (p : List String) : view e p [] ≠ .error .nameTooLong := by
        rw [view]
        cases (e.at? p).map surface <;> simp
      rw [List.nil_append, view_cons, view_cons, hsame place (by simp)]
      rcases (other.at? place).map surface with _ | ⟨_ | _, _⟩
      · simp
      · by_cases hdots : last = ".." <;> by_cases hlimit : nameLimit < last.utf8ByteSize <;>
          simp [hdots, hlimit, hend]
      · simp
  | cons segment rest ih =>
      rw [List.scanl_cons, List.forall_mem_cons] at hsame
      obtain ⟨hplace, hrest⟩ := hsame
      rw [List.cons_append, view_cons, view_cons, hplace]
      rcases (other.at? place).map surface with _ | ⟨_ | _, _⟩
      · exact Iff.rfl
      · by_cases hdots : segment = ".."
        · rw [Path.step, if_pos hdots] at hrest
          simpa [hdots] using ih hrest
        · rw [Path.step, if_neg hdots] at hrest
          by_cases hlimit : nameLimit < segment.utf8ByteSize
          · simp [hdots, hlimit]
          · simpa [hdots, hlimit] using ih hrest
      · exact Iff.rfl

/-! ## Putting an entry -/

theorem lookup_setChild_self (name : String) (entry : Entry) (children : List (String × Entry)) :
    (setChild name entry children).lookup name = some entry := by
  induction children with
  | nil => simp [setChild]
  | cons child rest ih =>
      obtain ⟨first, below⟩ := child
      rw [setChild]
      by_cases hfirst : first = name
      · simp [hfirst]
      · simp [hfirst, List.lookup_cons, beq_false_of_ne (Ne.symm hfirst), ih]

theorem lookup_setChild_of_ne {name other : String} (hother : other ≠ name) (entry : Entry)
    (children : List (String × Entry)) :
    (setChild name entry children).lookup other = children.lookup other := by
  induction children with
  | nil => simp [setChild, List.lookup_cons, beq_false_of_ne hother]
  | cons child rest ih =>
      obtain ⟨first, below⟩ := child
      rw [setChild]
      by_cases hfirst : first = name
      · simp [hfirst, List.lookup_cons, beq_false_of_ne hother]
      · simp [hfirst, List.lookup_cons, ih]

/-- Putting an entry into an existing directory changes nothing but what stands at its place and
below. -/
theorem surface_at?_put (entry : Entry) {segments place : List String} {top : Entry} {time : Int}
    {children : List (String × Entry)}
    (hdirectory : top.at? segments.dropLast = some (.directory time children))
    (hplace : ¬ segments <+: place) :
    ((put entry segments top).at? place).map surface = (top.at? place).map surface := by
  induction segments generalizing top place with
  | nil => exact absurd List.nil_prefix hplace
  | cons name rest ih =>
      -- the way to an existing directory starts at one
      obtain ⟨time', children', rfl⟩ : ∃ t cs, top = .directory t cs := by
        cases top with
        | directory t cs => exact ⟨t, cs, rfl⟩
        | file content t => cases rest <;> cases hdirectory
      cases place with
      | nil => rfl
      | cons first more =>
          show (((setChild name _ children').lookup first).bind (at? more)).map surface =
            ((children'.lookup first).bind (at? more)).map surface
          by_cases hfirst : first = name
          · subst hfirst
            cases rest with
            | nil => exact absurd (by simp) hplace
            | cons next rest =>
                obtain ⟨below, hbelow, hdirectory⟩ : ∃ below, children'.lookup first = some below ∧
                    below.at? (next :: rest).dropLast = some (.directory time children) :=
                  Option.bind_eq_some_iff.mp hdirectory
                have hchild : (Entry.directory time' children').child? first = some below := hbelow
                rw [lookup_setChild_self, hbelow, hchild]
                exact ih hdirectory fun h => hplace (List.cons_prefix_cons.mpr ⟨rfl, h⟩)
          · rw [lookup_setChild_of_ne hfirst]

end Entry

/-! ## File systems -/

namespace FileSystem

variable {fs gs : FileSystem} {apart more : List Path} {p : Path}

/-- The places that a path passes through; the last one is where it leads. -/
def placesOf (fs : FileSystem) (p : Path) : List (List String) :=
  (fs.absolute p).segments.scanl Path.step []

/-- Whether a path passes by other ones: it leads to none of them, and through none. -/
def PassesBy (fs : FileSystem) (apart : List Path) (p : Path) : Prop :=
  ∀ place ∈ fs.placesOf p, ∀ q ∈ apart, ¬ (fs.resolve q).segments <+: place

/-- The file systems show the same, except at some paths and below them. -/
structure AgreeApart (apart : List Path) (fs gs : FileSystem) : Prop where
  current_eq : gs.current = fs.current
  home_eq : gs.home = fs.home
  surface_eq : ∀ place : List String, (∀ q ∈ apart, ¬ (fs.resolve q).segments <+: place) →
    (fs.top.at? place).map Entry.surface = (gs.top.at? place).map Entry.surface

/-- A canonical path passes by those that it does not lie below. -/
theorem passesBy_of_settled (hp : p.Settled)
    (hbelow : ∀ q ∈ apart, ¬ (fs.resolve q).segments <+: p.segments) : fs.PassesBy apart p := by
  intro place hplace q hq habove
  rw [placesOf, absolute_of_settled hp] at hplace
  exact hbelow q hq (habove.trans (prefix_of_mem_scanl hp.no_dots hplace))

/-- Where a path leads that passes by others, its canonical path passes by them, too. -/
theorem PassesBy.resolve (hp : fs.PassesBy apart p) : fs.PassesBy apart (fs.resolve p) :=
  passesBy_of_settled (settled_resolve fs p) fun q hq =>
    hp _ (foldl_mem_scanl Path.step [] (fs.absolute p).segments) q hq

/-! ## What files show -/

theorem isFile_eq_surface (fs : FileSystem) (p : Path) :
    fs.isFile p =
      match (fs.lookup p).map Entry.surface with
      | .ok (content, _) => .ok content.isSome
      | .error .nameTooLong => .error ⟨.nameTooLong, p⟩
      | .error _ => .ok false := by
  unfold isFile entry?
  cases fs.lookup p with
  | error problem => cases problem <;> rfl
  | ok entry => cases entry <;> rfl

private theorem exists_isFile_iff :
    (∃ answer, fs.isFile p = .ok answer) ↔
      (fs.lookup p).map Entry.surface ≠ .error .nameTooLong := by
  rw [isFile_eq_surface]
  rcases (fs.lookup p).map Entry.surface with problem | shown
  · cases problem <;> simp
  · simp

private theorem read_eq_surface (fs : FileSystem) (p : Path) :
    fs.read p =
      match (fs.lookup p).map Entry.surface with
      | .ok (some content, _) => .ok content
      | .ok (none, _) => .error ⟨.isDirectory, p⟩
      | .error problem => .error ⟨problem, p⟩ := by
  unfold read
  cases fs.lookup p with
  | error problem => rfl
  | ok entry => cases entry <;> rfl

private theorem modified?_eq_surface (fs : FileSystem) (p : Path) :
    fs.modified? p = ((fs.lookup p).map Entry.surface).toOption.map Prod.snd := by
  unfold modified?
  cases fs.lookup p with
  | error problem => rfl
  | ok entry => cases entry <;> rfl

namespace AgreeApart

theorem resolve_eq (hagree : AgreeApart apart fs gs) (p : Path) : gs.resolve p = fs.resolve p := by
  simp only [resolve, absolute, currentPath, hagree.current_eq]

theorem symm (hagree : AgreeApart apart fs gs) : AgreeApart apart gs fs where
  current_eq := hagree.current_eq.symm
  home_eq := hagree.home_eq.symm
  surface_eq place hplace :=
    (hagree.surface_eq place fun q hq => hagree.resolve_eq q ▸ hplace q hq).symm

theorem trans {hs : FileSystem} (hfirst : AgreeApart apart fs gs)
    (hsecond : AgreeApart apart gs hs) : AgreeApart apart fs hs where
  current_eq := hsecond.current_eq.trans hfirst.current_eq
  home_eq := hsecond.home_eq.trans hfirst.home_eq
  surface_eq place hplace := by
    have hplace' : ∀ q ∈ apart, ¬ (gs.resolve q).segments <+: place := fun q hq =>
      (hfirst.resolve_eq q).symm ▸ hplace q hq
    exact (hfirst.surface_eq place hplace).trans (hsecond.surface_eq place hplace')

theorem mono (hagree : AgreeApart apart fs gs) (hsubset : apart ⊆ more) :
    AgreeApart more fs gs where
  current_eq := hagree.current_eq
  home_eq := hagree.home_eq
  surface_eq place hplace := hagree.surface_eq place fun q hq => hplace q (hsubset hq)

theorem canonical_eq (hagree : AgreeApart apart fs gs) (p : Path) :
    gs.canonical p = fs.canonical p := by
  have hhome : gs.expandHome? p = fs.expandHome? p := by
    unfold expandHome?
    rw [hagree.home_eq]
  unfold canonical
  rw [hhome]
  cases fs.expandHome? p with
  | none => rfl
  | some expanded => exact congrArg Except.ok (hagree.resolve_eq expanded)

/-- **What a path shows is the same in both file systems if it passes by where they differ.** -/
theorem lookup_eq (hagree : AgreeApart apart fs gs) (hp : fs.PassesBy apart p) :
    (fs.lookup p).map Entry.surface = (gs.lookup p).map Entry.surface := by
  have habsolute : gs.absolute p = fs.absolute p := by
    simp only [absolute, currentPath, hagree.current_eq]
  unfold lookup
  by_cases hlimit : pathLimit < p.toString.utf8ByteSize
  · rw [if_pos hlimit, if_pos hlimit]
  · rw [if_neg hlimit, if_neg hlimit, habsolute, Entry.follow_eq_view .start,
      Entry.follow_eq_view .start]
    exact Entry.view_congr fun place hplace => hagree.surface_eq place (hp place hplace)

theorem isFile_eq (hagree : AgreeApart apart fs gs) (hp : fs.PassesBy apart p) :
    gs.isFile p = fs.isFile p := by
  rw [isFile_eq_surface, isFile_eq_surface, hagree.lookup_eq hp]

theorem read_eq (hagree : AgreeApart apart fs gs) (hp : fs.PassesBy apart p) :
    gs.read p = fs.read p := by
  rw [read_eq_surface, read_eq_surface, hagree.lookup_eq hp]

theorem modified?_eq (hagree : AgreeApart apart fs gs) (hp : fs.PassesBy apart p) :
    gs.modified? p = fs.modified? p := by
  rw [modified?_eq_surface, modified?_eq_surface, hagree.lookup_eq hp]

/-- What is in a directory can be looked up in both file systems or in neither. -/
theorem exists_isFile (hagree : AgreeApart apart fs gs) {directory : Path} {name : String}
    (hdirectory : fs.PassesBy apart directory) (hsettled : (directory.child name).Settled)
    (hanswer : ∃ answer, fs.isFile (directory.child name) = .ok answer) :
    ∃ answer, gs.isFile (directory.child name) = .ok answer := by
  have hparent : directory.Settled :=
    ⟨hsettled.anchor_eq, fun hdots => hsettled.no_dots (List.mem_append_left _ hdots)⟩
  have hlookup : (fs.lookup (directory.child name)).map Entry.surface = .error .nameTooLong ↔
      (gs.lookup (directory.child name)).map Entry.surface = .error .nameTooLong := by
    unfold lookup
    by_cases hlimit : pathLimit < (directory.child name).toString.utf8ByteSize
    · rw [if_pos hlimit, if_pos hlimit]
    · rw [if_neg hlimit, if_neg hlimit, absolute_of_settled hsettled,
        absolute_of_settled hsettled, Entry.follow_eq_view .start, Entry.follow_eq_view .start]
      refine Entry.view_eq_nameTooLong_iff fun place hplace => hagree.surface_eq place ?_
      rw [PassesBy, placesOf, absolute_of_settled hparent] at hdirectory
      exact hdirectory place hplace
  rw [exists_isFile_iff] at hanswer ⊢
  exact fun hlong => hanswer (hlookup.mpr hlong)

end AgreeApart

/-- Writing a file into an existing directory changes nothing else. -/
theorem agreeApart_write {time : Int} {children : List (String × Entry)}
    (hdirectory : fs.top.at? (fs.resolve p).segments.dropLast = some (.directory time children))
    (content : List UInt8) (changed : Int) : AgreeApart [p] fs (fs.write p content changed) where
  current_eq := rfl
  home_eq := rfl
  surface_eq _ hplace :=
    (Entry.surface_at?_put _ hdirectory (hplace p List.mem_cons_self)).symm

end FileSystem

end ComponentDocs
