import ComponentDocs.Proofs.Documenter.History

/-!
# Freshness after a reset

Clearing or disposing of a documenter brings it back to the files on disk: from then on, as long as
no file changes, it replies as a newly made documenter does, whatever else is called in between.

The invariant behind this is `Faithful`: every file that has been read has the bytes that are on
disk, and every record that is kept is the one that a new documenter makes.  A reset establishes it
(`faithful_clear`, `faithful_dispose`) and every operation keeps it (`Faithful.perform`).
-/

namespace ComponentDocs

open Project

namespace Documenter

variable {c : Configuration} {disk : Disk} {d : Documenter}

/-! ## The invariant -/

/-- The reply that a newly made documenter gives for a canonical path. -/
def freshReply (c : Configuration) (fs : FileSystem) (path : Path) : Option ComponentRecord :=
  (recordAt c.setup fs path c.documenter.state).1

/-- The documenter has nothing but what a new one would read and make. -/
structure Faithful (c : Configuration) (fs : FileSystem) (d : Documenter) : Prop
    extends Follows c d where
  current : Current fs d.state.project
  entries : ∀ entry ∈ d.state.store.entries, ∃ path : Path, path.WellFormed ∧
    entry.key = path.toString ∧ freshReply c fs path = some entry.record

namespace Faithful

variable {fs : FileSystem} {path : Path}

/-- What a faithful documenter sees is what a new one sees. -/
theorem sameView (hd : Faithful c fs d) :
    SameView fs d.state.project c.documenter.state.project :=
  sameView_of_current hd.current rfl hd.base_eq hd.aliases_eq

/-- Each parse that is kept is one of the bytes on disk. -/
theorem read_of_file? (hd : Faithful c fs d) {file : Source.ParsedFile}
    (hfile : d.state.project.file? path = some file) : fs.read path = .ok file.source := by
  have hcurrent := hd.current file (List.mem_of_find?_eq_some hfile)
  rwa [path_of_file? hfile] at hcurrent

theorem propertiesAt_eq (hd : Faithful c fs d) (path : Path) :
    propertiesAt c.setup fs path d.state.project =
      propertiesAt c.setup fs path c.documenter.state.project :=
  (Extraction.properties_congr hd.sameView path).1

/-- A faithful documenter replies like a new one. -/
theorem recordAt_fst (hd : Faithful c fs d) (hsettled : path.Settled)
    (hwellFormed : path.WellFormed) :
    (recordAt c.setup fs path d.state).1 = freshReply c fs path := by
  cases hkept : d.state.store.get? path.toString with
  | some record =>
      obtain ⟨entry, hentry, hkey, hrecord⟩ := RecordStore.exists_entry_of_get? hkept
      obtain ⟨other, hother, hotherKey, hreply⟩ := hd.entries entry hentry
      have hsame : other = path :=
        (Path.toString_inj hother hwellFormed).mp (hotherKey.symm.trans hkey)
      rw [recordAt_of_get? hkept, ← hsame, hreply, hrecord]
  | none =>
      rw [recordAt_fst_of_get?_eq_none hsettled hkept, hd.propertiesAt_eq path, freshReply,
        recordAt_fst_of_get?_eq_none hsettled rfl]

theorem forgets {after : Documenter} (hd : Faithful c fs d) (hforgets : Forgets d after) :
    Faithful c fs after where
  toFollows := hd.toFollows.forgets hforgets
  current file hfile := hd.current file (hforgets.files hfile)
  entries entry hentry := hd.entries entry (hforgets.entries hentry)

theorem recordAt (hd : Faithful c fs d) (hsettled : path.Settled)
    (hwellFormed : path.WellFormed) :
    Faithful c fs { d with state := (Documenter.recordAt d.setup fs path d.state).2 } where
  toFollows := hd.toFollows.recordAt hsettled
  current := (recordAt_asked hsettled).keeps.current hd.current
  entries entry hentry := by
    rcases (recordAt_asked hsettled).entries entry hentry with hentry | ⟨hkey, hmade⟩
    · exact hd.entries entry hentry
    · refine ⟨path, hwellFormed, hkey, ?_⟩
      rw [hd.setup_eq, hd.propertiesAt_eq] at hmade
      rw [freshReply, recordAt_fst_of_get?_eq_none hsettled rfl, hmade]
      rfl

theorem recordsAt (hd : Faithful c fs d) {paths : List Path}
    (hpaths : ∀ p ∈ paths, p.Settled ∧ p.WellFormed) :
    Faithful c fs { d with state := (Documenter.recordsAt d.setup fs paths d.state).2 } :=
  recordsAt_preserves (motive := fun state => Faithful c fs { d with state })
    (fun p hp _ hstate => Faithful.recordAt hstate (hpaths p hp).1 (hpaths p hp).2) hd

/-- **Every operation keeps a documenter faithful to files that stay as they are.** -/
theorem perform {disk : Disk} (hd : Faithful c disk.toFileSystem d) (operation : Operation) :
    Faithful c disk.toFileSystem (d.perform disk.toFileSystem operation) := by
  have hdirectory : d.setup.componentsDirectory.WellFormed :=
    hd.setup_eq ▸ c.directory_wellFormed
  rcases perform_cases disk hdirectory operation with ⟨paths, hpaths, hperform⟩ | hforgets
  · rw [hperform]
    exact hd.recordsAt hpaths
  · exact hd.forgets hforgets

theorem performAll {disk : Disk} (hd : Faithful c disk.toFileSystem d)
    (operations : List Operation) :
    Faithful c disk.toFileSystem (d.performAll disk.toFileSystem operations) := by
  induction operations generalizing d with
  | nil => exact hd
  | cons operation rest ih => exact ih (hd.perform operation)

end Faithful

/-! ## Resets -/

theorem faithful_clear {fs : FileSystem} (hd : Follows c d) : Faithful c fs (d.clear fs) where
  setup_eq := hd.setup_eq
  base_eq := hd.base_eq
  aliases_eq := hd.aliases_eq
  current file hfile := by
    have hcurrent := (List.mem_filter.mp hfile).2
    unfold isCurrent at hcurrent
    split at hcurrent
    · next source hsource => rw [hsource, of_decide_eq_true hcurrent]
    · cases hcurrent
  entries _ hentry := absurd hentry List.not_mem_nil

theorem faithful_dispose {fs : FileSystem} (hd : Follows c d) : Faithful c fs d.dispose where
  setup_eq := hd.setup_eq
  base_eq := hd.base_eq
  aliases_eq := hd.aliases_eq
  current _ hfile := absurd hfile List.not_mem_nil
  entries _ hentry := absurd hentry List.not_mem_nil

end Documenter

/-- Whether a history leaves a documenter that has just been reset: it is empty, or its last event
clears or disposes of the documenter. -/
def EndsInReset (history : List Event) : Prop :=
  history = [] ∨ ∃ before, history = before ++ [.call .clear] ∨ history = before ++ [.call .dispose]

open Documenter in
theorem faithful_of_endsInReset (c : Configuration) (disk : Disk) {history : List Event}
    (hreset : EndsInReset history) :
    Faithful c (c.session disk history).disk.toFileSystem (c.session disk history).documenter := by
  obtain rfl | ⟨before, rfl | rfl⟩ := hreset
  · exact ⟨⟨rfl, rfl, rfl⟩, by simp [Current, Configuration.session, Session.run,
      Configuration.documenter], by simp [Configuration.session, Session.run,
      Configuration.documenter]⟩
  · have hbefore := c.follows_session disk before
    rw [Configuration.session, Session.run_append]
    exact faithful_clear hbefore
  · have hbefore := c.follows_session disk before
    rw [Configuration.session, Session.run_append]
    exact faithful_dispose hbefore

/-- **After a reset a documenter replies as a new one does.**  Whatever has been called and changed
before, and whatever is called afterwards, as long as the files stay as they are. -/
theorem document_eq_of_endsInReset (c : Configuration) (disk : Disk) (history : List Event)
    (hreset : EndsInReset history) (operations : List Operation) (path : String) :
    let s := c.session disk history
    ((s.documenter.performAll s.disk.toFileSystem operations).document s.disk.toFileSystem
        (Path.ofString path)).map Prod.fst =
      (c.documenter.document s.disk.toFileSystem (Path.ofString path)).map Prod.fst := by
  intro s
  have hfaithful := (faithful_of_endsInReset c disk hreset).performAll operations
  rw [Documenter.document_eq, Documenter.document_eq]
  cases hplace : s.disk.canonical (Path.ofString path) with
  | error e => rfl
  | ok place =>
      refine congrArg Except.ok ?_
      have hreply := hfaithful.recordAt_fst (FileSystem.settled_of_canonical hplace)
        (Disk.wellFormed_canonical (Path.wellFormed_ofString path) hplace)
      rw [← hfaithful.setup_eq] at hreply
      exact hreply

/-- A history in which the file of a component changes before the documenter is cleared. -/
def changedThenCleared : List Event :=
  [.change (.holding "T.ts" "interface TProps\x7ba:A\x7d"), .call (.document "T.ts"),
    .change (.holding "T.ts" "interface TProps\x7bb:B\x7d"), .call .clear]

theorem document_eq_of_changedThenCleared :
    EndsInReset changedThenCleared ∧
    (let s := (Configuration.plain {}).session .blank changedThenCleared
    ((s.documenter.performAll s.disk.toFileSystem [.isStale "T.ts", .document "T.ts"]).document
        s.disk.toFileSystem (Path.ofString "T.ts")).map Prod.fst =
      ((Configuration.plain {}).documenter.document s.disk.toFileSystem
        (Path.ofString "T.ts")).map Prod.fst) ∧
    Documenter.replyNames ((Configuration.plain {}).documenter.document
      (Disk.holding "T.ts" "interface TProps\x7bb:B\x7d").toFileSystem (Path.ofString "T.ts")) =
      some ["b"] := by
  have hreset : EndsInReset changedThenCleared := .inr ⟨changedThenCleared.take 3, .inl rfl⟩
  refine ⟨hreset, ?_, by decide +kernel⟩
  exact document_eq_of_endsInReset _ _ _ hreset [.isStale "T.ts", .document "T.ts"] "T.ts"

end ComponentDocs
