import Mathlib.Data.List.Induction
import ComponentDocs.Proofs.Files.Destination

/-!
# What files hold

A canonical path can be read if its names can be followed and a file stands where they lead
(`read_eq_ok_iff`), and bytes can be added there if there is a file, or nothing at all in an
existing directory (`append_isOk_iff`).  Adding bytes puts them behind what the file held before,
leaves what all other files hold as it is (`read_append`), and never closes a path to further bytes
(`Appendable.append`).
-/

namespace ComponentDocs

namespace Entry

variable {top here entry : Entry} {place segments : List String} {above : List Entry}

/-! ## Where names lead -/

theorem Reached.of_follow (hreached : Reached top place above here) (hdots : ".." ∉ segments)
    (hfollow : follow above here segments = .ok entry) :
    (∀ name ∈ segments, name.utf8ByteSize ≤ nameLimit) ∧
      ∃ more, Reached top (place ++ segments) more entry := by
  induction segments generalizing place above here with
  | nil =>
      cases hfollow
      rw [List.append_nil]
      exact ⟨fun _ hname => absurd hname List.not_mem_nil, above, hreached⟩
  | cons segment rest ih =>
      rw [List.mem_cons, not_or] at hdots
      cases here with
      | file content time => simp [follow] at hfollow
      | directory time children =>
          rw [follow.eq_def] at hfollow
          dsimp only at hfollow
          rw [if_neg (Ne.symm hdots.1)] at hfollow
          split at hfollow
          · cases hfollow
          · next hlimit =>
              split at hfollow
              · next below hbelow =>
                  obtain ⟨hnames, more, hmore⟩ := ih (hreached.child hbelow) hdots.2 hfollow
                  rw [List.append_assoc] at hmore
                  exact ⟨List.forall_mem_cons.mpr ⟨Nat.not_lt.mp hlimit, hnames⟩, more, hmore⟩
              · cases hfollow

theorem exists_reached (hhere : top.at? place = some here) :
    ∃ above, Reached top place above here := by
  induction place using List.reverseRecOn generalizing here with
  | nil =>
      cases hhere
      exact ⟨[], .start⟩
  | append_singleton place name ih =>
      rw [at?_append] at hhere
      obtain ⟨up, hup, hbelow⟩ := Option.bind_eq_some_iff.mp hhere
      obtain ⟨above, hreached⟩ := ih hup
      exact ⟨up :: above, hreached.child hbelow⟩

/-- Names without double dots lead to what stands there, if they can be followed. -/
theorem follow_eq_ok_iff (hdots : ".." ∉ place) :
    follow [] top place = .ok here ↔ Followable place ∧ top.at? place = some here := by
  constructor
  · intro hfollow
    obtain ⟨hnames, above, hreached⟩ := Reached.start.of_follow hdots hfollow
    exact ⟨fun name hname => ⟨ne_of_mem_of_not_mem hname hdots, hnames name hname⟩,
      hreached.at?_eq⟩
  · rintro ⟨hplace, hhere⟩
    obtain ⟨above, hreached⟩ := exists_reached hhere
    have hend := hreached.follow_append hplace []
    rwa [List.append_nil] at hend

/-- What comes of one more name behind those that lead to a directory. -/
theorem follow_concat {time : Int} {children : List (String × Entry)} {last : String}
    (hplace : Followable place) (hdirectory : top.at? place = some (.directory time children))
    (hlast : last ≠ "..") :
    follow [] top (place ++ [last]) =
      if nameLimit < last.utf8ByteSize then .error .nameTooLong
      else (top.at? (place ++ [last])).elim (.error .missing) .ok := by
  obtain ⟨above, hreached⟩ := exists_reached hdirectory
  have hbelow : top.at? (place ++ [last]) = children.lookup last := by
    rw [at?_append, hdirectory]
    rfl
  rw [hreached.follow_append hplace, follow.eq_def, hbelow]
  dsimp only
  rw [if_neg hlast]
  split
  · rfl
  · cases children.lookup last <;> rfl

/-! ## Putting a file -/

/-- Whether there is a directory at a place. -/
def HasDirectory (top : Entry) (place : List String) : Prop :=
  ∃ time, (top.at? place).map surface = some (none, time)

/-- The bytes of the file at a place. -/
def bytesAt? (top : Entry) (place : List String) : Option (List UInt8) :=
  ((top.at? place).map surface).bind Prod.fst

/-- Whether a place is open to a file: there is one already, or nothing in an existing directory. -/
def Open (top : Entry) (place : List String) : Prop :=
  (top.bytesAt? place).isSome ∨ top.at? place = none ∧ top.HasDirectory place.dropLast

theorem hasDirectory_iff :
    top.HasDirectory place ↔ ∃ time children, top.at? place = some (.directory time children) := by
  unfold HasDirectory
  rcases top.at? place with _ | ⟨_, _⟩ | ⟨_, _⟩ <;> simp [surface]

theorem bytesAt?_eq_some_iff {bytes : List UInt8} :
    top.bytesAt? place = some bytes ↔ ∃ time, top.at? place = some (.file bytes time) := by
  unfold bytesAt?
  rcases top.at? place with _ | ⟨_, _⟩ | ⟨_, _⟩ <;> simp [surface]

theorem HasDirectory.of_child {name : String} (hhere : top.at? (place ++ [name]) = some here) :
    top.HasDirectory place := by
  rw [at?_append] at hhere
  obtain ⟨up, hup, hbelow⟩ := Option.bind_eq_some_iff.mp hhere
  cases up with
  | file content time => cases hbelow
  | directory time children => exact hasDirectory_iff.mpr ⟨time, children, hup⟩

theorem Open.not_hasDirectory (hopen : top.Open place) : ¬ top.HasDirectory place := by
  rw [hasDirectory_iff]
  rintro ⟨time, children, hhere⟩
  rcases hopen with hfile | ⟨hnone, -⟩
  · simp [bytesAt?, hhere, surface] at hfile
  · simp [hnone] at hhere

/-- The directory of an open place is there, unless the place is the top. -/
theorem Open.hasDirectory_dropLast (hopen : top.Open place) (hplace : place ≠ []) :
    top.HasDirectory place.dropLast := by
  rcases hopen with hfile | ⟨-, hdirectory⟩
  · obtain ⟨bytes, hbytes⟩ := Option.isSome_iff_exists.mp hfile
    obtain ⟨time, hhere⟩ := bytesAt?_eq_some_iff.mp hbytes
    rw [← List.dropLast_append_getLast hplace] at hhere
    exact .of_child hhere
  · exact hdirectory

/-- Nothing stands below an open place. -/
theorem Open.at?_below (hopen : top.Open place) (name : String) (more : List String) :
    top.at? (place ++ name :: more) = none := by
  rw [at?_append_append]
  rcases hopen with hfile | ⟨hnone, -⟩
  · obtain ⟨bytes, hbytes⟩ := Option.isSome_iff_exists.mp hfile
    obtain ⟨time, hhere⟩ := bytesAt?_eq_some_iff.mp hbytes
    rw [hhere]
    rfl
  · rw [hnone]
    rfl

theorem at?_put_self (entry : Entry) (place : List String) (top : Entry) :
    (put entry place top).at? place = some entry := by
  induction place generalizing top with
  | nil => rfl
  | cons name rest ih =>
      show ((setChild name _ top.children).lookup name).bind (at? rest) = some entry
      rw [lookup_setChild_self]
      exact ih _

theorem bytesAt?_put_self {content : List UInt8} {time : Int} :
    (put (.file content time) place top).bytesAt? place = some content := by
  rw [bytesAt?, at?_put_self]
  rfl

/-- A file at an open place leaves all other places as they were. -/
theorem Open.surface_at?_put (hopen : top.Open segments) (content : List UInt8) (time : Int)
    (hplace : place ≠ segments) :
    ((put (.file content time) segments top).at? place).map surface =
      (top.at? place).map surface := by
  by_cases hbelow : segments <+: place
  · obtain ⟨more, rfl⟩ := hbelow
    cases more with
    | nil => exact absurd (List.append_nil _) hplace
    | cons name more =>
        have hput : (put (.file content time) segments top).Open segments :=
          .inl (Option.isSome_of_eq_some bytesAt?_put_self)
        rw [hput.at?_below, hopen.at?_below]
  · have hsegments : segments ≠ [] := fun hnil => hbelow (hnil ▸ List.nil_prefix)
    obtain ⟨_, _, hdirectory⟩ := hasDirectory_iff.mp (hopen.hasDirectory_dropLast hsegments)
    exact Entry.surface_at?_put _ hdirectory hbelow

/-- A file at an open place leaves the open places open. -/
theorem Open.put {content : List UInt8} {time : Int} (hopen : top.Open segments)
    (hother : top.Open place) : (Entry.put (.file content time) segments top).Open place := by
  by_cases hplace : place = segments
  · subst hplace
    exact .inl (Option.isSome_of_eq_some bytesAt?_put_self)
  · rcases hother with hfile | ⟨hnone, hdirectory⟩
    · left
      rwa [bytesAt?, hopen.surface_at?_put content time hplace]
    · have hparent : place.dropLast ≠ segments := fun hsame =>
        hopen.not_hasDirectory (hsame ▸ hdirectory)
      right
      rw [HasDirectory, hopen.surface_at?_put content time hparent, ← Option.map_eq_none_iff,
        hopen.surface_at?_put content time hplace, hnone]
      exact ⟨rfl, hdirectory⟩

end Entry

/-! ## Reading and adding -/

theorem Path.Settled.eq_of_segments_eq {p q : Path} (hp : p.Settled) (hq : q.Settled)
    (hsegments : p.segments = q.segments) : p = q := by
  obtain ⟨anchor, segments⟩ := p
  obtain ⟨other, more⟩ := q
  cases hp.anchor_eq
  cases hq.anchor_eq
  exact congrArg (Path.mk .root) hsegments

namespace FileSystem

variable {fs gs : FileSystem} {p q : Path} {bytes : List UInt8} {time : Int}

/-- Whether no name of a path, and not the path itself, is too long. -/
def Usable (p : Path) : Prop :=
  p.toString.utf8ByteSize ≤ pathLimit ∧ Entry.Followable p.segments

theorem lookup_eq_ok_iff (hp : p.Settled) {e : Entry} :
    fs.lookup p = .ok e ↔ Usable p ∧ fs.top.at? p.segments = some e := by
  rw [lookup, absolute_of_settled hp, Usable, and_assoc, ← Entry.follow_eq_ok_iff hp.no_dots]
  by_cases hlimit : pathLimit < p.toString.utf8ByteSize
  · simp [hlimit, Nat.not_le.mpr hlimit]
  · rw [if_neg hlimit]
    exact (and_iff_right (Nat.not_lt.mp hlimit)).symm

theorem read_eq_ok_iff (hp : p.Settled) :
    fs.read p = .ok bytes ↔ Usable p ∧ fs.top.bytesAt? p.segments = some bytes := by
  have hread : fs.read p = .ok bytes ↔ ∃ time, fs.lookup p = .ok (.file bytes time) := by
    unfold read
    rcases fs.lookup p with _ | ⟨_, _⟩ | ⟨_, _⟩ <;> simp
  rw [hread, Entry.bytesAt?_eq_some_iff]
  simp only [lookup_eq_ok_iff hp, exists_and_left]

/-- Whether bytes can be added at a path. -/
def Appendable (fs : FileSystem) (p : Path) : Prop := Usable p ∧ fs.top.Open p.segments

theorem write_of_settled (hp : p.Settled) (bytes : List UInt8) (time : Int) :
    fs.write p bytes time =
      { fs with top := Entry.put (.file bytes time) p.segments fs.top } := by
  rw [write, resolve_of_settled hp]

/-- Bytes are added behind what the file holds. -/
theorem append_eq_write (happend : fs.append p bytes time = .ok gs) :
    gs = fs.write p ((fs.read p).toOption.getD [] ++ bytes) time := by
  unfold append at happend
  unfold read
  split at happend
  · next content _ hlookup =>
      cases happend
      rw [hlookup]
      rfl
  · cases happend
  · next hlookup =>
      rw [hlookup]
      split at happend
      · cases happend
        rfl
      · cases happend
      · cases happend
  · cases happend

/-- In an existing directory nothing but what is not there cannot be found. -/
private theorem lookup_eq_missing_iff (hp : p.Settled) (hroot : p.segments ≠ [])
    (hnames : Entry.Followable p.parent.segments)
    (hdirectory : fs.top.HasDirectory p.parent.segments) :
    fs.lookup p = .error .missing ↔ Usable p ∧ fs.top.at? p.segments = none := by
  obtain ⟨changed, children, hdirectory⟩ := Entry.hasDirectory_iff.mp hdirectory
  have hsegments : p.segments = p.parent.segments ++ [p.segments.getLast hroot] :=
    (List.dropLast_append_getLast hroot).symm
  generalize p.segments.getLast hroot = last at hsegments
  have hlast : last ≠ ".." := by
    rintro rfl
    exact hp.no_dots (hsegments ▸ List.mem_append_right _ List.mem_cons_self)
  have hfollowable : Entry.Followable p.segments ↔ last.utf8ByteSize ≤ Entry.nameLimit := by
    rw [hsegments, Entry.Followable, List.forall_mem_append, List.forall_mem_singleton]
    exact ⟨fun h => h.2.2, fun h => ⟨hnames, hlast, h⟩⟩
  have hfollow := Entry.follow_concat hnames hdirectory hlast
  rw [← hsegments] at hfollow
  rw [lookup, absolute_of_settled hp, Usable, hfollowable, hfollow]
  by_cases hpath : pathLimit < p.toString.utf8ByteSize
  · simp [hpath, Nat.not_le.mpr hpath]
  · by_cases hname : Entry.nameLimit < last.utf8ByteSize
    · simp [hname, Nat.not_le.mpr hname]
    · rw [if_neg hpath, if_neg hname]
      cases fs.top.at? p.segments <;> simp [Nat.not_lt.mp hpath, Nat.not_lt.mp hname]

theorem settled_parent (hp : p.Settled) : p.parent.Settled :=
  ⟨hp.anchor_eq, fun hdots => hp.no_dots (List.dropLast_subset _ hdots)⟩

theorem appendable_of_append (hp : p.Settled) (happend : fs.append p bytes time = .ok gs) :
    fs.Appendable p := by
  unfold append at happend
  split at happend
  · next content changed hlookup =>
      obtain ⟨husable, hfile⟩ := (lookup_eq_ok_iff hp).mp hlookup
      exact ⟨husable, .inl (by simp [Entry.bytesAt?, hfile, Entry.surface])⟩
  · cases happend
  · next hlookup =>
      split at happend
      · next changed children hparent =>
          have hroot : p.segments ≠ [] := fun hnil => by
            have hself : p.parent = p := by rw [Path.parent, hnil, List.dropLast_nil, ← hnil]
            rw [hself, hlookup] at hparent
            cases hparent
          obtain ⟨⟨-, hnames⟩, hdirectory⟩ := (lookup_eq_ok_iff (settled_parent hp)).mp hparent
          have hdirectory := Entry.hasDirectory_iff.mpr ⟨_, _, hdirectory⟩
          obtain ⟨husable, hnone⟩ := (lookup_eq_missing_iff hp hroot hnames hdirectory).mp hlookup
          exact ⟨husable, .inr ⟨hnone, hdirectory⟩⟩
      · cases happend
      · cases happend
  · cases happend

theorem Usable.parent (hp : p.Settled) (husable : Usable p) : Usable p.parent := by
  refine ⟨Nat.le_trans ?_ husable.1, fun name hname => husable.2 name ?_⟩
  · obtain ⟨hanchor, -⟩ := hp
    have hshorter := Path.utf8ByteSize_intercalate_le p.segments.dropLast_sublist
    simpa [Path.toString, Path.parent, hanchor] using hshorter
  · exact List.dropLast_subset _ hname

/-- **Bytes can be added where there is a file, or nothing in an existing directory.** -/
theorem append_isOk_iff (hp : p.Settled) :
    (∃ gs, fs.append p bytes time = .ok gs) ↔ fs.Appendable p := by
  refine ⟨fun ⟨gs, happend⟩ => appendable_of_append hp happend, ?_⟩
  rintro ⟨husable, hfile | ⟨hnone, hdirectory⟩⟩
  · obtain ⟨content, hcontent⟩ := Option.isSome_iff_exists.mp hfile
    obtain ⟨changed, hfile⟩ := Entry.bytesAt?_eq_some_iff.mp hcontent
    rw [append, (lookup_eq_ok_iff hp).mpr ⟨husable, hfile⟩]
    exact ⟨_, rfl⟩
  · have hroot : p.segments ≠ [] := fun hnil => by
      rw [hnil] at hnone
      cases hnone
    have hparent := husable.parent hp
    have hmissing := (lookup_eq_missing_iff hp hroot hparent.2 hdirectory).mpr ⟨husable, hnone⟩
    obtain ⟨changed, children, hdirectory⟩ := Entry.hasDirectory_iff.mp hdirectory
    rw [append, hmissing, (lookup_eq_ok_iff (settled_parent hp)).mpr ⟨hparent, hdirectory⟩]
    exact ⟨_, rfl⟩

/-- **Adding bytes puts them behind what the file held, and changes no other file.** -/
theorem read_append (hp : p.Settled) (hq : q.Settled) (happend : fs.append p bytes time = .ok gs) :
    (gs.read q).toOption =
      if q = p then some ((fs.read p).toOption.getD [] ++ bytes) else (fs.read q).toOption := by
  obtain ⟨husable, hopen⟩ := appendable_of_append hp happend
  rw [append_eq_write happend, write_of_settled hp]
  split
  · next hsame =>
      subst hsame
      rw [(read_eq_ok_iff hq).mpr ⟨husable, Entry.bytesAt?_put_self⟩]
      rfl
  · next hother =>
      have hplace : q.segments ≠ p.segments := fun hsegments =>
        hother (hq.eq_of_segments_eq hp hsegments)
      refine Option.ext fun content => ?_
      have hread {gs : FileSystem} :
          (gs.read q).toOption = some content ↔
            Usable q ∧ gs.top.bytesAt? q.segments = some content := by
        rw [← read_eq_ok_iff hq]
        cases gs.read q <;> simp [Except.toOption]
      rw [hread, hread, Entry.bytesAt?, hopen.surface_at?_put _ _ hplace, ← Entry.bytesAt?]

/-- Adding bytes to one file leaves all others open to bytes. -/
theorem Appendable.append (hp : p.Settled) (hopen : fs.Appendable q)
    (happend : fs.append p bytes time = .ok gs) : gs.Appendable q := by
  obtain ⟨-, hplace⟩ := appendable_of_append hp happend
  rw [append_eq_write happend, write_of_settled hp]
  exact ⟨hopen.1, hplace.put hopen.2⟩

theorem resolve_append (happend : fs.append p bytes time = .ok gs) (q : Path) :
    gs.resolve q = fs.resolve q := by
  rw [append_eq_write happend]
  rfl

end FileSystem

end ComponentDocs
