import ComponentDocs.Proofs.Documenter.Freshness
import ComponentDocs.Proofs.Documenter.RecordInvariant
import ComponentDocs.Proofs.Files.Listing

/-!
# Documenting a directory

A new documenter that documents a directory asks for one record after the other, with one project,
one store and one list of diagnostics for all of them.  Each component still gets the record that it
gets on its own from another new documenter, whatever comes before it and whether that fails or not:
a faithful documenter stays faithful and replies like a new one (`Faithful.recordsAt_fst`).  As no
file is listed twice, `documentBelow_eq_sort_replies` gives the whole reply.
-/

namespace ComponentDocs

namespace Documenter

variable {c : Configuration} {d : Documenter} {fs : FileSystem}

/-- **What comes before makes no difference to a record**: for any paths in any order, a faithful
documenter gives the records that new documenters give for each of them alone. -/
theorem Faithful.recordsAt_fst (hd : Faithful c fs d) {paths : List Path}
    (hpaths : ∀ p ∈ paths, p.Settled ∧ p.WellFormed) :
    (Documenter.recordsAt c.setup fs paths d.state).1 = paths.filterMap (freshReply c fs) := by
  induction paths generalizing d with
  | nil => rfl
  | cons path rest ih =>
      obtain ⟨⟨hsettled, hwellFormed⟩, hrest⟩ := List.forall_mem_cons.mp hpaths
      have hafter := hd.recordAt hsettled hwellFormed
      rw [hd.setup_eq] at hafter
      calc (Documenter.recordsAt c.setup fs (path :: rest) d.state).1
          = (Documenter.recordAt c.setup fs path d.state).1.toList ++
              (Documenter.recordsAt c.setup fs rest
                (Documenter.recordAt c.setup fs path d.state).2).1 := rfl
        _ = (freshReply c fs path).toList ++ rest.filterMap (freshReply c fs) := by
              rw [hd.recordAt_fst hsettled hwellFormed, ← ih hafter hrest]
        _ = (path :: rest).filterMap (freshReply c fs) := by
              rw [List.filterMap_cons]
              cases freshReply c fs path <;> rfl

/-- A record bears the path that it is made for. -/
theorem filePath_of_freshReply {path : Path} (hpath : path.Settled) {record : ComponentRecord}
    (hreply : freshReply c fs path = some record) : record.filePath = path.toString := by
  rw [freshReply, recordAt_fst_of_get?_eq_none hpath rfl] at hreply
  obtain ⟨⟨made, print⟩, hmade, rfl⟩ := Option.map_eq_some_iff.mp hreply
  cases hfrom : recordFrom c.setup fs path (propertiesAt c.setup fs path
      c.documenter.state.project) with
  | error e => simp [hfrom, Except.toOption] at hmade
  | ok result =>
      rw [hfrom] at hmade
      cases hmade
      exact (recordFrom_wellMade (Extraction.nodup_names_properties fs _ _ _ _ _) hfrom).2

/-- Replies to different paths bear different paths. -/
theorem nodup_filePaths_freshReply {paths : List Path} (hnodup : paths.Nodup)
    (hpaths : ∀ p ∈ paths, p.Settled ∧ p.WellFormed) :
    ((paths.filterMap (freshReply c fs)).map ComponentRecord.filePath).Nodup := by
  have hsublist : ((paths.filterMap (freshReply c fs)).map ComponentRecord.filePath).Sublist
      (paths.map Path.toString) := by
    clear hnodup
    induction paths with
    | nil => exact .slnil
    | cons path rest ih =>
        obtain ⟨hpath, hrest⟩ := List.forall_mem_cons.mp hpaths
        rw [List.filterMap_cons]
        cases hreply : freshReply c fs path with
        | none => exact (ih hrest).cons _
        | some record =>
            rw [List.map_cons, filePath_of_freshReply hpath.1 hreply]
            exact (ih hrest).cons_cons _
  refine hsublist.nodup (hnodup.map_on fun p hp q hq hsame => ?_)
  exact (Path.toString_inj (hpaths p hp).2 (hpaths q hq).2).mp hsame

/-- A new documenter has nothing else than what new documenters have. -/
theorem faithful_documenter (c : Configuration) (disk : Disk) :
    Faithful c disk.toFileSystem c.documenter :=
  @faithful_of_endsInReset c disk [] (.inl rfl)

/-- On a canonical path a new documenter replies without a fault. -/
theorem document_of_settled {p : Path} (hp : p.Settled) :
    (c.documenter.document fs p).map Prod.fst = .ok (freshReply c fs p) := by
  rw [document_eq, FileSystem.canonical_of_settled hp]
  rfl

end Documenter

open Documenter

/-- **Documenting a directory is documenting each component below it alone.**  A new documenter
replies with the records that new documenters give for the components that are located, in the order
of their names, those that get none being left out.  No two records bear the same path, and no
component that has a record is missing.  The files that are asked for before a component, in any
number and any order, do not change its record. -/
theorem Configuration.documentBelow_eq_sort_replies (c : Configuration) (disk : Disk)
    (hnames : disk.top.hasDistinctNames) (directory : Option String) (place : Path)
    (hplace : disk.canonical ((directory.map Path.ofString).getD c.setup.componentsDirectory) =
      .ok place)
    (hdirectory : disk.isDirectory place = .ok true) :
    let fs := disk.toFileSystem
    let root := (directory.map Path.ofString).getD c.setup.componentsDirectory
    let reply (p : Path) : Option ComponentRecord :=
      (c.documenter.document fs p).toOption.bind Prod.fst
    ∃ (located : List Path) (records : List ComponentRecord) (after : Documenter),
      let components := located.filter (ComponentFiles.isComponent c.setup.excludeMarkers)
      ComponentFiles.below fs root root.toString (.ok c.setup.pattern) = .ok located ∧
      (∀ p ∈ components, (c.documenter.document fs p).map Prod.fst = .ok (reply p)) ∧
      c.documenter.documentBelow fs (directory.map Path.ofString) = .ok (records, after) ∧
      records = (components.filterMap reply).mergeSort (fun a b => a.name ≤ b.name) ∧
      (records.map ComponentRecord.filePath).Nodup ∧
      (∀ p ∈ components, ∀ record, reply p = some record → record ∈ records) ∧
      ∀ earlier ⊆ located, ∀ p ∈ components,
        (recordAt c.setup fs p (recordsAt c.setup fs earlier c.documenter.state).2).1 =
          reply p := by
  intro fs root reply
  have hroot : root.WellFormed := by
    cases directory with
    | none => exact c.directory_wellFormed
    | some text => exact Path.wellFormed_ofString text
  obtain ⟨entry, hlookup, hlocated⟩ :=
    ComponentFiles.below_of_isDirectory hplace hdirectory root.toString c.setup.pattern
  have hentry : entry.hasDistinctNames := Disk.hasDistinctNames_of_lookup hnames hlookup
  let located : List Path := ComponentFiles.walk c.setup.pattern.found place entry
  let components := located.filter (ComponentFiles.isComponent c.setup.excludeMarkers)
  have hpaths : ∀ p ∈ located, p.Settled ∧ p.WellFormed := fun p hp =>
    ⟨ComponentFiles.settled_of_mem_walk (FileSystem.settled_of_canonical hplace) hentry hp,
      ComponentFiles.wellFormed_of_mem_below hroot hlocated hp⟩
  have hcomponents : ∀ p ∈ components, p.Settled ∧ p.WellFormed := fun p hp =>
    hpaths p (List.mem_of_mem_filter hp)
  have hnodup : components.Nodup := (ComponentFiles.nodup_walk hentry).filter _
  have hreply : ∀ p ∈ components, reply p = freshReply c fs p := by
    intro p hp
    simp only [reply, document_eq, FileSystem.canonical_of_settled (hcomponents p hp).1]
    rfl
  -- located paths are canonical, so they are the ones that records are asked for under
  have hlisted : c.documenter.componentFiles fs (directory.map Path.ofString) = .ok components := by
    show (do
      let paths ← ComponentFiles.below fs root root.toString (.ok c.setup.pattern)
      return paths.filter (ComponentFiles.isComponent c.setup.excludeMarkers)) = _
    rw [hlocated]
    rfl
  have hcanonical : components.map fs.canonical = components.map .ok :=
    List.map_congr_left fun p hp => FileSystem.canonical_of_settled (hcomponents p hp).1
  have hrecords : (recordsAt c.setup fs components c.documenter.state).1 =
      components.filterMap (freshReply c fs) :=
    (faithful_documenter c disk).recordsAt_fst hcomponents
  have hreplies : components.filterMap (freshReply c fs) = components.filterMap reply :=
    List.filterMap_congr fun p hp => (hreply p hp).symm
  refine ⟨located, _, _, hlocated, ?_, documentBelow_of_canonical hlisted hcanonical, ?_, ?_, ?_,
    ?_⟩
  · intro p hp
    rw [document_of_settled (hcomponents p hp).1, hreply p hp]
  · exact congrArg (List.mergeSort · _) (hrecords.trans hreplies)
  · rw [((List.mergeSort_perm _ _).map _).nodup_iff]
    exact hrecords ▸ nodup_filePaths_freshReply hnodup hcomponents
  · intro p hp record hrecord
    have hmem : record ∈ components.filterMap reply := List.mem_filterMap.mpr ⟨p, hp, hrecord⟩
    rw [← hreplies, ← hrecords] at hmem
    exact List.mem_mergeSort.mpr hmem
  · intro earlier hearlier p hp
    have hafter := (faithful_documenter c disk).recordsAt fun q hq => hpaths q (hearlier hq)
    rw [hreply p hp]
    exact hafter.recordAt_fst (hcomponents p hp).1 (hcomponents p hp).2

/-- Two components that import each other, and a third one whose time is no moment of the
calendar. -/
def entangledDisk : Disk where
  top := .directory 0 [
    ("A.ts", .file (Text.bytesOf ("import\x7bBProps\x7dfrom\"./d/B\";" ++
      "export interface AProps extends BProps\x7b\x7d")) 0),
    ("d", .directory 0 [
      ("B.ts", .file (Text.bytesOf ("import\x7bAProps\x7dfrom\"../A\";" ++
        "export interface BProps extends AProps\x7b\x7d")) 0),
      ("e", .directory 0 [
        ("C.ts", .file (Text.bytesOf "interface CProps\x7b\x7d") (10 ^ 30))])])]
  current := []
  home := []
  top_proper := by decide +kernel
  current_proper := rfl
  home_proper := rfl

/-- The first two get their records, in spite of the cycle and of the third one. -/
theorem documentBelow_entangled :
    let c := Configuration.plain { inheritedProperties := true }
    ∃ records after,
      c.documenter.documentBelow entangledDisk.toFileSystem none = .ok (records, after) ∧
      (records.map ComponentRecord.name).Perm ["A", "B"] ∧
      (records.map ComponentRecord.filePath).Nodup := by
  intro c
  obtain ⟨located, records, after, hbelow, -, hdone, hrecords, hnodup, -⟩ :=
    c.documentBelow_eq_sort_replies entangledDisk (by decide +kernel) none ⟨.root, []⟩ rfl
      (by decide +kernel)
  have hwalk : ComponentFiles.walk c.setup.pattern.found ⟨.root, []⟩ entangledDisk.top =
      [⟨.root, ["A.ts"]⟩, ⟨.root, ["d", "B.ts"]⟩, ⟨.root, ["d", "e", "C.ts"]⟩] := by
    have hfound : ∀ name ∈ ["A.ts", "B.ts", "C.ts"], c.setup.pattern.found name := by
      decide +kernel
    have hskipped : ∀ name ∈ ["d", "e"], ComponentFiles.isSkipped name = false := by
      decide +kernel
    simp only [List.forall_mem_cons] at hfound hskipped
    simp [entangledDisk, ComponentFiles.walk, ComponentFiles.walkAll, ComponentFiles.inOrder,
      Path.child, hfound, hskipped]
  have hlocated : ComponentFiles.walk c.setup.pattern.found ⟨.root, []⟩ entangledDisk.top =
      located :=
    Except.ok.inj hbelow
  refine ⟨records, after, hdone, ?_, hnodup⟩
  rw [hrecords, ← hlocated, hwalk]
  refine ((List.mergeSort_perm _ _).map _).trans (.of_eq ?_)
  decide +kernel

end ComponentDocs
