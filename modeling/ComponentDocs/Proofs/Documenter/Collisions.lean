import Mathlib.Data.Set.List
import ComponentDocs.Proofs.Curated.FirstOverride
import ComponentDocs.Proofs.Documenter.Fingerprints
import ComponentDocs.Proofs.Documenter.History
import ComponentDocs.Proofs.Files.PathText

/-!
# When fingerprints collide

A fingerprint is one list of bytes: the bytes of the source file, and for each override file that is
found its path and its bytes, with nothing in between.

```text
/T.ts  <source>  /T.docs.py  <override>  /T.docs.yml  <override>
```

Where a file ends can only be seen from the path of the next one, and that can stand in a file as
well.  So there are two ways for different files to have the same fingerprint.  A file can imitate
the start of an override file (`Imitates`), and the mark of a source file that is missing can be the
content of one that is not (`written_not_stale`).  `sameFiles_of_fingerprint_eq` says that there are
no others: where no file does either, the list is read back from the left, one file after the other
(`eq_of_joined_eq`).
-/

namespace ComponentDocs

/-! ## Marks -/

/-- Whether a mark that is put behind some bytes can be found there before its place. -/
def Imitates (mark bytes : List UInt8) : Prop :=
  ∃ n < bytes.length, mark <+: (bytes ++ mark).drop n

instance (mark bytes : List UInt8) : Decidable (Imitates mark bytes) :=
  inferInstanceAs (Decidable (∃ n < bytes.length, mark <+: (bytes ++ mark).drop n))

section Marks

variable {mark first other rest more : List UInt8}

/-- A mark that is found early is found inside bytes that imitate it. -/
private theorem imitates_of_lt {tail : List UInt8} (htail : tail = [] ∨ mark <+: tail)
    (hjoined : first ++ (mark ++ rest) = other ++ tail) (hlt : first.length < other.length) :
    Imitates mark other := by
  refine ⟨first.length, hlt, ?_⟩
  have hrest : mark ++ rest = other.drop first.length ++ tail := by
    have := congrArg (List.drop first.length) hjoined
    rwa [List.drop_left, List.drop_append_of_le_length hlt.le] at this
  have hmark : mark <+: other.drop first.length ++ tail := hrest ▸ List.prefix_append mark rest
  rw [List.drop_append_of_le_length hlt.le]
  rcases htail with rfl | ⟨more, rfl⟩
  · rw [List.append_nil] at hmark
    exact hmark.trans (List.prefix_append _ _)
  · rw [← List.append_assoc] at hmark
    exact List.prefix_of_prefix_length_le hmark (List.prefix_append _ _) (by simp)

/-- Bytes that do not imitate the mark behind them are told apart from what follows. -/
theorem eq_of_append_mark_eq (hfirst : ¬ Imitates mark first) (hother : ¬ Imitates mark other)
    (hjoined : first ++ (mark ++ rest) = other ++ (mark ++ more)) :
    first = other ∧ rest = more := by
  rcases lt_trichotomy first.length other.length with hlt | heq | hgt
  · exact absurd (imitates_of_lt (.inr (List.prefix_append _ _)) hjoined hlt) hother
  · obtain ⟨hsame, hmarked⟩ := List.append_inj hjoined heq
    exact ⟨hsame, List.append_cancel_left hmarked⟩
  · exact absurd (imitates_of_lt (.inr (List.prefix_append _ _)) hjoined.symm hgt) hfirst

theorem append_mark_ne (hmark : mark ≠ []) (hother : ¬ Imitates mark other) :
    first ++ (mark ++ rest) ≠ other := by
  intro hjoined
  have hlt : first.length < other.length := by
    have hlength := List.length_pos_iff.mpr hmark
    rw [← hjoined, List.length_append, List.length_append]
    omega
  exact hother (imitates_of_lt (.inl rfl) (hjoined.trans (List.append_nil other).symm) hlt)

end Marks

namespace Documenter

/-! ## The paths of override files -/

/-- The path of a component's override file with an ending. -/
def overridePath (path : Path) (ending : String) : Path :=
  path.parent.child (path.stem ++ ".docs" ++ ending)

/-- The bytes that the paths of all override files of a component start with. -/
def overrideMark (path : Path) : List UInt8 :=
  Text.bytesOf (path.parent.child (path.stem ++ ".docs")).toString

/-- The endings of override files in all formats. -/
def overrideEndings : List String := OverrideFormat.all.flatMap OverrideFormat.endings

variable {setup : DocumenterSetup} {fs gs : FileSystem} {path : Path} {format : OverrideFormat}

theorem bytesOf_append (s t : String) : Text.bytesOf (s ++ t) = Text.bytesOf s ++ Text.bytesOf t := by
  simp [Text.bytesOf]

theorem bytesOf_overridePath (path : Path) (ending : String) :
    Text.bytesOf (overridePath path ending).toString =
      overrideMark path ++ Text.bytesOf ending := by
  rw [overridePath, Path.toString_child_append, bytesOf_append, overrideMark]

theorem mem_overrideEndings {ending : String} (hending : ending ∈ format.endings) :
    ending ∈ overrideEndings :=
  List.mem_flatMap.mpr ⟨format, by cases format <;> decide, hending⟩

/-- No ending is the beginning of another one. -/
theorem ending_eq_of_prefix_bytesOf : ∀ ending ∈ overrideEndings, ∀ other ∈ overrideEndings,
    Text.bytesOf ending <+: Text.bytesOf other → ending = other := by
  decide +kernel

/-- No two formats have an ending in common. -/
theorem format_eq_of_ending {other : OverrideFormat} {ending : String}
    (hending : ending ∈ format.endings) (hother : ending ∈ other.endings) : format = other := by
  have hapart : ∀ ending ∈ OverrideFormat.assignments.endings,
      ending ∉ OverrideFormat.data.endings := by decide
  cases format <;> cases other
  · rfl
  · exact absurd hother (hapart ending hending)
  · exact absurd hending (hapart ending hother)
  · rfl

theorem head?_overrideMark (hpath : path.Settled) : (overrideMark path).head? = some 47 := by
  have hanchor : path.parent.anchor.text = "/" := by rw [Path.parent, hpath.anchor_eq]; rfl
  have hslash : Text.bytesOf "/" = [47] := by decide
  rw [overrideMark, Path.toString_child, hanchor, bytesOf_append, hslash]
  rfl

theorem overrideMark_ne_nil (hpath : path.Settled) : overrideMark path ≠ [] := by
  intro hnil
  simpa [hnil] using head?_overrideMark hpath

/-- What stands for a missing file has no slash in it. -/
theorem not_imitates_missingMark (hpath : path.Settled) :
    ¬ Imitates (overrideMark path) missingMark := by
  rintro ⟨n, hn, hmark⟩
  have hslash : ∀ n < missingMark.length, missingMark[n]? ≠ some 47 := by decide
  obtain ⟨rest, hrest⟩ := hmark
  have hhead := congrArg List.head? hrest
  rw [List.head?_append, head?_overrideMark hpath, List.head?_drop,
    List.getElem?_append_left hn] at hhead
  exact hslash n hn hhead.symm

private theorem exists_bytesAt_of_isFile {p : Path} (hfile : fs.isFile p = .ok true) :
    ∃ bytes, bytesAt fs p = some bytes := by
  unfold FileSystem.isFile FileSystem.entry? at hfile
  unfold bytesAt FileSystem.read
  cases hlookup : fs.lookup p with
  | error problem =>
      rw [hlookup] at hfile
      cases problem <;> cases hfile
  | ok entry =>
      cases entry with
      | file content time => exact ⟨content, rfl⟩
      | directory time children =>
          rw [hlookup] at hfile
          cases hfile

/-- An override file that is found stands at one of the paths that are looked for, and it can be
read. -/
theorem exists_ending_of_path? {p : Path} (hfound : format.path? fs path = .ok (some p)) :
    (∃ ending ∈ format.endings, p = overridePath path ending) ∧
      ∃ bytes, bytesAt fs p = some bytes := by
  unfold OverrideFormat.path? OverrideFormat.candidates at hfound
  cases hbase : OverrideFormat.base path with
  | error e => simp [hbase, bind, Except.bind] at hfound
  | ok bare =>
      simp only [hbase, bind, Except.bind, pure, Except.pure] at hfound
      obtain ⟨hmem, hfile⟩ := FileSystem.of_firstFile_eq_some hfound
      obtain ⟨ending, hending, rfl⟩ := List.mem_map.mp hmem
      refine ⟨⟨ending, hending, ?_⟩, exists_bytesAt_of_isFile hfile⟩
      rw [OverrideFormat.eq_of_base hbase]
      simp [overridePath, Path.parent, Path.name, Path.child]

/-! ## Reading a fingerprint from the left -/

/-- The bytes that are joined for override files with some endings. -/
def joined (mark : List UInt8) (endings : List String) (content : String → List UInt8) :
    List UInt8 :=
  endings.flatMap fun ending => mark ++ (Text.bytesOf ending ++ content ending)

section Joined

variable {mark source other : List UInt8} {endings more : List String}
  {content kept : String → List UInt8}

theorem joined_cons (ending : String) :
    joined mark (ending :: endings) content =
      mark ++ (Text.bytesOf ending ++ (content ending ++ joined mark endings content)) := by
  simp [joined]

/-- Where no file imitates the mark, joined files are told apart. -/
theorem eq_of_joined_eq (hmark : mark ≠ []) (hendings : endings ⊆ overrideEndings)
    (hmore : more ⊆ overrideEndings) (hsource : ¬ Imitates mark source)
    (hother : ¬ Imitates mark other) (hcontent : ∀ e ∈ endings, ¬ Imitates mark (content e))
    (hkept : ∀ e ∈ more, ¬ Imitates mark (kept e))
    (hjoined : source ++ joined mark endings content = other ++ joined mark more kept) :
    source = other ∧ endings = more ∧ ∀ e ∈ endings, content e = kept e := by
  induction endings generalizing source other more with
  | nil =>
      cases more with
      | nil => simpa [joined] using hjoined
      | cons ending more =>
          rw [joined_cons] at hjoined
          exact absurd (hjoined.symm.trans (List.append_nil source)) (append_mark_ne hmark hsource)
  | cons ending endings ih =>
      obtain ⟨hending, hrestEndings⟩ := List.cons_subset.mp hendings
      rw [List.forall_mem_cons] at hcontent ⊢
      rw [joined_cons] at hjoined
      cases more with
      | nil => exact absurd (hjoined.trans (List.append_nil other)) (append_mark_ne hmark hother)
      | cons ending' more =>
          obtain ⟨hending', hrestMore⟩ := List.cons_subset.mp hmore
          rw [List.forall_mem_cons] at hkept
          rw [joined_cons] at hjoined
          obtain ⟨rfl, hrest⟩ := eq_of_append_mark_eq hsource hother hjoined
          -- of two endings at one place one is the beginning of the other
          obtain rfl : ending = ending' := by
            have hprefix : Text.bytesOf ending' <+:
                Text.bytesOf ending ++ (content ending ++ joined mark endings content) :=
              hrest ▸ List.prefix_append _ _
            rcases List.prefix_or_prefix_of_prefix (List.prefix_append _ _) hprefix with h | h
            · exact ending_eq_of_prefix_bytesOf _ hending _ hending' h
            · exact (ending_eq_of_prefix_bytesOf _ hending' _ hending h).symm
          obtain ⟨hfirst, rfl, hbehind⟩ := ih hrestEndings hrestMore hcontent.1 hkept.1 hcontent.2
            hkept.2 (List.append_cancel_left hrest)
          exact ⟨rfl, rfl, hfirst, hbehind⟩

end Joined

/-! ## The files behind a fingerprint -/

theorem overridePath_injective (path : Path) : Function.Injective (overridePath path) := by
  intro ending other hsame
  have hname := congrArg Path.name hsame
  simpa [overridePath, Path.child, Path.name] using hname

/-- Whether some endings are those of the override files that are found. -/
def FoundEndings (setup : DocumenterSetup) (fs : FileSystem) (path : Path)
    (endings : List String) : Prop :=
  ∀ ending, ending ∈ endings ↔ ∃ format ∈ setup.formats, ending ∈ format.endings ∧
    format.path? fs path = .ok (some (overridePath path ending))

/-- The bytes of an override file in a fingerprint. -/
def overrideContent (fs : FileSystem) (path : Path) (ending : String) : List UInt8 :=
  (bytesAt fs (overridePath path ending)).getD missingMark

/-- A fingerprint is joined from the path and bytes of the source file and from the override files
that are found. -/
theorem exists_joined_of_fingerprint {print : Fingerprint}
    (hprint : fingerprint setup fs path = .ok print) :
    ∃ endings, FoundEndings setup fs path endings ∧
      print = Text.bytesOf path.toString ++ ((bytesAt fs path).getD missingMark ++
        joined (overrideMark path) endings (overrideContent fs path)) := by
  obtain ⟨found, hfound, rfl⟩ := exists_of_fingerprint hprint
  have hrange : found.reduceOption ∈ Set.range (List.map (overridePath path)) := by
    rw [Set.range_list_map]
    intro p hp
    obtain ⟨format, -, hp⟩ := (mem_reduceOption_iff hfound).mp hp
    obtain ⟨⟨ending, -, rfl⟩, -⟩ := exists_ending_of_path? hp
    exact ⟨ending, rfl⟩
  obtain ⟨endings, hendings⟩ := hrange
  refine ⟨endings, fun ending => ?_, ?_⟩
  · have hmem : ending ∈ endings ↔ overridePath path ending ∈ found.reduceOption := by
      rw [← hendings, List.mem_map_of_injective (overridePath_injective path)]
    rw [hmem, mem_reduceOption_iff hfound]
    refine exists_congr fun format => and_congr_right fun _ => ⟨fun hp => ⟨?_, hp⟩, And.right⟩
    obtain ⟨⟨other, hother, hsame⟩, -⟩ := exists_ending_of_path? hp
    exact overridePath_injective path hsame ▸ hother
  · rw [← hendings, List.flatMap_cons, List.flatMap_map, fileBytes_eq, List.append_assoc, joined]
    refine congrArg _ (congrArg _ (List.flatMap_congr fun ending _ => ?_))
    rw [fileBytes_eq, bytesOf_overridePath, List.append_assoc, overrideContent]

variable {endings : List String}

theorem FoundEndings.subset (hendings : FoundEndings setup fs path endings) :
    endings ⊆ overrideEndings := by
  intro ending hending
  obtain ⟨format, -, hmem, -⟩ := (hendings ending).mp hending
  exact mem_overrideEndings hmem

/-- With the same endings the same override files are found. -/
theorem FoundEndings.path?_eq (hleft : FoundEndings setup fs path endings)
    (hright : FoundEndings setup gs path endings) (hformat : format ∈ setup.formats) {p : Path}
    (hfound : format.path? fs path = .ok (some p)) : format.path? gs path = .ok (some p) := by
  obtain ⟨⟨ending, hending, rfl⟩, -⟩ := exists_ending_of_path? hfound
  have hmem : ending ∈ endings := (hleft ending).mpr ⟨format, hformat, hending, hfound⟩
  obtain ⟨other, -, hother, hpath⟩ := (hright ending).mp hmem
  rwa [format_eq_of_ending hending hother]

/-- Whether a component has the same files in two file systems: the same source file or none, and
the same override files. -/
structure SameFiles (setup : DocumenterSetup) (fs gs : FileSystem) (path : Path) : Prop where
  source_eq : bytesAt fs path = bytesAt gs path
  found_eq : ∀ format ∈ setup.formats, format.path? fs path = format.path? gs path
  override_eq : ∀ format ∈ setup.formats, ∀ p, format.path? fs path = .ok (some p) →
    bytesAt fs p = bytesAt gs p

/-- Whether no file of a component looks like something else in its fingerprint: the source file
not like one that is missing, and none of the files like the beginning of an override file. -/
structure Unmistakable (setup : DocumenterSetup) (fs : FileSystem) (path : Path) : Prop where
  source_ne : bytesAt fs path ≠ some missingMark
  source_clear : ∀ bytes ∈ bytesAt fs path, ¬ Imitates (overrideMark path) bytes
  override_clear : ∀ format ∈ setup.formats, ∀ p, format.path? fs path = .ok (some p) →
    ∀ bytes ∈ bytesAt fs p, ¬ Imitates (overrideMark path) bytes

theorem Unmistakable.not_imitates_source (hclear : Unmistakable setup fs path)
    (hpath : path.Settled) : ¬ Imitates (overrideMark path) ((bytesAt fs path).getD missingMark) := by
  cases hbytes : bytesAt fs path with
  | none => exact not_imitates_missingMark hpath
  | some bytes => exact hclear.source_clear bytes hbytes

theorem Unmistakable.not_imitates_override (hclear : Unmistakable setup fs path)
    (hendings : FoundEndings setup fs path endings) :
    ∀ ending ∈ endings, ¬ Imitates (overrideMark path) (overrideContent fs path ending) := by
  intro ending hending
  obtain ⟨format, hformat, -, hfound⟩ := (hendings ending).mp hending
  obtain ⟨-, bytes, hbytes⟩ := exists_ending_of_path? hfound
  rw [overrideContent, hbytes]
  exact hclear.override_clear format hformat _ hfound bytes hbytes

private theorem eq_of_getD_eq {bytes other : Option (List UInt8)} (hbytes : bytes ≠ some missingMark)
    (hother : other ≠ some missingMark)
    (hsame : bytes.getD missingMark = other.getD missingMark) : bytes = other := by
  cases bytes <;> cases other <;> simp_all

/-- Where no file looks like something else, a fingerprint tells of the files. -/
theorem Unmistakable.sameFiles (hpath : path.Settled) (hleft : Unmistakable setup fs path)
    (hright : Unmistakable setup gs path) {print : Fingerprint}
    (hprint : fingerprint setup fs path = .ok print)
    (hprint' : fingerprint setup gs path = .ok print) : SameFiles setup fs gs path := by
  obtain ⟨endings, hendings, hjoined⟩ := exists_joined_of_fingerprint hprint
  obtain ⟨more, hmore, hjoined'⟩ := exists_joined_of_fingerprint hprint'
  have hsame := List.append_cancel_left (hjoined.symm.trans hjoined')
  obtain ⟨hsource, rfl, hcontent⟩ := eq_of_joined_eq (overrideMark_ne_nil hpath) hendings.subset
    hmore.subset (hleft.not_imitates_source hpath) (hright.not_imitates_source hpath)
    (hleft.not_imitates_override hendings) (hright.not_imitates_override hmore) hsame
  refine ⟨eq_of_getD_eq hleft.source_ne hright.source_ne hsource, ?_, ?_⟩
  · intro format hformat
    obtain ⟨found, hfound⟩ := exists_path?_of_fingerprint hprint format hformat
    obtain ⟨other, hother⟩ := exists_path?_of_fingerprint hprint' format hformat
    cases found with
    | some p => rw [hfound, hendings.path?_eq hmore hformat hfound]
    | none =>
        cases other with
        | some p => rw [hmore.path?_eq hendings hformat hother, hother]
        | none => rw [hfound, hother]
  · intro format hformat p hfound
    obtain ⟨⟨ending, hending, rfl⟩, bytes, hbytes⟩ := exists_ending_of_path? hfound
    obtain ⟨-, other, hother⟩ := exists_ending_of_path? (hendings.path?_eq hmore hformat hfound)
    have hmem := (hendings ending).mpr ⟨format, hformat, hending, hfound⟩
    simpa [overrideContent, hbytes, hother] using hcontent ending hmem

end Documenter

open Documenter

/-- **Which files a fingerprint tells apart.**  If a component has the same fingerprint in two file
systems, it has the same files there exactly if these have the same layout; and it has the same files
if in neither of them one looks like something else. -/
theorem sameFiles_of_fingerprint_eq (setup : DocumenterSetup) (fs gs : FileSystem) (path : Path)
    (hpath : path.Settled) (print : Fingerprint)
    (hprint : fingerprint setup fs path = .ok print)
    (hprint' : fingerprint setup gs path = .ok print) :
    (SameFiles setup fs gs path ↔ SameLayout setup fs gs path) ∧
    (Unmistakable setup fs path → Unmistakable setup gs path → SameFiles setup fs gs path) := by
  refine ⟨⟨fun hsame => ?_, fun hlayout => ?_⟩, fun hleft hright =>
    hleft.sameFiles hpath hright hprint hprint'⟩
  · exact ⟨hsame.found_eq, congrArg _ hsame.source_eq,
      fun format hformat p hp => congrArg _ (hsame.override_eq format hformat p hp)⟩
  · obtain ⟨hsource, hoverrides⟩ := hlayout.bytesAt_eq hprint hprint'
    exact ⟨hsource, hlayout.found_eq, hoverrides⟩

/-- A component whose override file is written again, with the same bytes and at another time, has
the same files. -/
theorem sameFiles_of_rewritten :
    let setup := (Configuration.plain {}).setup
    let path : Path := ⟨.root, ["T.ts"]⟩
    let curated := Text.bytesOf "DOCS=\x7b\"description\":\"d\"\x7d"
    let before := (Disk.holding "T.ts" "interface TProps\x7ba:A\x7d").write "T.docs.py" curated 0
    let after := before.write "T.docs.py" curated 1000000000
    (∃ print, fingerprint setup before.toFileSystem path = .ok print ∧
      fingerprint setup after.toFileSystem path = .ok print) ∧
    Unmistakable setup before.toFileSystem path ∧ Unmistakable setup after.toFileSystem path ∧
    SameFiles setup before.toFileSystem after.toFileSystem path := by
  intro setup path curated before after
  have hpath : path.Settled := ⟨rfl, by decide⟩
  have hclear : ∀ disk ∈ [before, after],
      bytesAt disk.toFileSystem path ≠ some missingMark ∧
      (∀ bytes ∈ bytesAt disk.toFileSystem path, ¬ Imitates (overrideMark path) bytes) ∧
      ∀ format ∈ setup.formats, ∀ found ∈ (format.path? disk.toFileSystem path).toOption,
        ∀ p ∈ found, ∀ bytes ∈ bytesAt disk.toFileSystem p,
          ¬ Imitates (overrideMark path) bytes := by
    decide +kernel
  have hprints : (fingerprint setup before.toFileSystem path).toOption.isSome ∧
      (fingerprint setup after.toFileSystem path).toOption =
        (fingerprint setup before.toFileSystem path).toOption := by
    decide +kernel
  have hunmistakable : ∀ disk ∈ [before, after], Unmistakable setup disk.toFileSystem path := by
    intro disk hdisk
    obtain ⟨hsource, hcontent, hoverrides⟩ := hclear disk hdisk
    refine ⟨hsource, hcontent, fun format hformat p hp => hoverrides format hformat (some p) ?_ p rfl⟩
    rw [hp]
    rfl
  obtain ⟨print, hprint⟩ : ∃ print, fingerprint setup before.toFileSystem path = .ok print ∧
      fingerprint setup after.toFileSystem path = .ok print := by
    obtain ⟨hsome, hsame⟩ := hprints
    cases hbefore : fingerprint setup before.toFileSystem path <;>
      cases hafter : fingerprint setup after.toFileSystem path <;>
      simp_all [Except.toOption]
  have hbefore := hunmistakable before (by simp)
  have hafter := hunmistakable after (by simp)
  obtain ⟨-, hsame⟩ := sameFiles_of_fingerprint_eq setup before.toFileSystem after.toFileSystem path
    hpath print hprint.1 hprint.2
  exact ⟨⟨print, hprint⟩, hbefore, hafter, hsame hbefore hafter⟩

/-- A component gets its record before it has a file, and then a file that holds just the mark of a
missing one.  The fingerprint stays and the record does not count as stale. -/
theorem written_not_stale :
    let c := Configuration.plain {}
    let path : Path := ⟨.root, ["T.ts"]⟩
    let s := c.session .blank [.call (.document "T.ts")]
    let after := Disk.blank.write "T.ts" missingMark 0
    (s.documenter.isStale after.toFileSystem path).toOption = some false ∧
    (fingerprint c.setup Disk.blank.toFileSystem path).toOption =
      (fingerprint c.setup after.toFileSystem path).toOption ∧
    (fingerprint c.setup after.toFileSystem path).toOption.isSome ∧
    bytesAt Disk.blank.toFileSystem path = none ∧
    bytesAt after.toFileSystem path = some missingMark := by
  decide +kernel

end ComponentDocs
