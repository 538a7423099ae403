import ComponentDocs.Proofs.Documenter.Records
import ComponentDocs.Proofs.Files.Disk

/-!
# Histories of documenters

A documenter lives through calls of its operations while the files on disk change.  A configuration
is what such a documenter is set up with, and a history is a list of events, each a change of the
disk to any other one or a call.

Whatever is called, a documenter either asks for the records of some components or forgets
something (`perform_cases`); this is all that later modules need to know about its operations.
-/

namespace ComponentDocs

open Project

/-- What a new documenter is made from: its setup and what its compiler configuration states. -/
structure Configuration where
  setup : DocumenterSetup
  base : Path
  aliases : List Alias
  directory_wellFormed : setup.componentsDirectory.WellFormed

/-- A newly made documenter. -/
def Configuration.documenter (c : Configuration) : Documenter where
  setup := c.setup
  state := { project := { base := c.base, aliases := c.aliases } }

/-- An operation of a documenter with its arguments as the caller writes them. -/
inductive Operation where
  | document (path : String)
  | documentBelow (directory : Option String)
  | isStale (path : String)
  | invalidate
  | clear
  | dispose
  deriving DecidableEq, Repr

/-- What happens to a documenter and its files. -/
inductive Event where
  /-- The files, and the current and home directory, become these. -/
  | change (disk : Disk)
  | call (operation : Operation)

namespace Documenter

/-- The documenter after an operation; one that fails at its arguments changes nothing. -/
def perform (d : Documenter) (fs : FileSystem) : Operation → Documenter
  | .document path =>
    match d.document fs (Path.ofString path) with
    | .ok (_, d) => d
    | .error _ => d
  | .documentBelow directory =>
    match d.documentBelow fs (directory.map Path.ofString) with
    | .ok (_, d) => d
    | .error _ => d
  | .isStale _ => d
  | .invalidate => (d.invalidate fs).2
  | .clear => d.clear fs
  | .dispose => d.dispose

/-- The documenter after several operations on the same files. -/
def performAll (d : Documenter) (fs : FileSystem) (operations : List Operation) : Documenter :=
  operations.foldl (·.perform fs) d

end Documenter

/-- A documenter and the disk that it works on. -/
structure Session where
  documenter : Documenter
  disk : Disk

namespace Session

/-- The session after an event. -/
def next (s : Session) : Event → Session
  | .change disk => { s with disk }
  | .call operation => { s with documenter := s.documenter.perform s.disk.toFileSystem operation }

@[simp] theorem documenter_next_change (s : Session) (disk : Disk) :
    (s.next (.change disk)).documenter = s.documenter := rfl

@[simp] theorem documenter_next_call (s : Session) (operation : Operation) :
    (s.next (.call operation)).documenter =
      s.documenter.perform s.disk.toFileSystem operation := rfl

@[simp] theorem disk_next_call (s : Session) (operation : Operation) :
    (s.next (.call operation)).disk = s.disk := rfl

/-- The session after a history. -/
def run (s : Session) (history : List Event) : Session := history.foldl next s

theorem run_append (s : Session) (before after : List Event) :
    s.run (before ++ after) = (s.run before).run after :=
  List.foldl_append

end Session

/-- The session in which a new documenter lives through a history. -/
def Configuration.session (c : Configuration) (disk : Disk) (history : List Event) : Session :=
  Session.run ⟨c.documenter, disk⟩ history

namespace Documenter

variable {c : Configuration} {d : Documenter} {disk : Disk}

private theorem files_of_start {fs : FileSystem} {configuration : Option Path} {P : Project}
    (hstart : Project.start fs configuration = .ok P) : P.files = [] := by
  simp only [Project.start, bind, Except.bind, pure, Except.pure, throw, throwThe,
    MonadExceptOf.throw] at hstart
  repeat' split at hstart
  all_goals cases hstart
  all_goals rfl

/-- A documenter that has just been set up is the one of its configuration. -/
theorem eq_documenter_of_start {names : CharacterNames} {fs : FileSystem} {settings : Settings}
    {request : Request} (hstart : Documenter.start names fs settings request = .ok d)
    (hdirectory : d.setup.componentsDirectory.WellFormed) :
    d = Configuration.documenter
      ⟨d.setup, d.state.project.base, d.state.project.aliases, hdirectory⟩ := by
  simp only [Documenter.start, bind, Except.bind, pure, Except.pure, throw, throwThe,
    MonadExceptOf.throw] at hstart
  split at hstart
  · next P hproject =>
      have hfiles := files_of_start hproject
      repeat' split at hstart
      all_goals cases hstart
      exact congrArg (fun files => (⟨_, ⟨⟨files, _, _⟩, _, _⟩⟩ : Documenter)) hfiles
  · cases hstart

/-! ## What operations do -/

/-- The second documenter is the first one without some of what it has read and kept. -/
structure Forgets (d after : Documenter) : Prop where
  setup_eq : after.setup = d.setup
  base_eq : after.state.project.base = d.state.project.base
  aliases_eq : after.state.project.aliases = d.state.project.aliases
  files : after.state.project.files ⊆ d.state.project.files
  entries : after.state.store.entries ⊆ d.state.store.entries

theorem Forgets.refl (d : Documenter) : Forgets d d :=
  ⟨rfl, rfl, rfl, List.Subset.refl _, List.Subset.refl _⟩

theorem Forgets.trans {d after last : Documenter} (hfirst : Forgets d after)
    (hsecond : Forgets after last) : Forgets d last where
  setup_eq := hsecond.setup_eq.trans hfirst.setup_eq
  base_eq := hsecond.base_eq.trans hfirst.base_eq
  aliases_eq := hsecond.aliases_eq.trans hfirst.aliases_eq
  files _ hfile := hfirst.files (hsecond.files hfile)
  entries _ hentry := hfirst.entries (hsecond.entries hentry)

private theorem forgets_dropOutdated (fs : FileSystem) (keys : List String) (d : Documenter) :
    Forgets d (dropOutdated fs keys d).2.2 := by
  fun_induction dropOutdated fs keys d with
  | case1 d => exact .refl d
  | case2 key rest d e _ => exact .refl d
  | case3 key rest d _ ih => exact ih
  | case4 key rest d _ smaller fault dropped last hlast ih =>
      have herased : Forgets d smaller :=
        ⟨rfl, rfl, rfl, List.Subset.refl _, fun _ hentry => RecordStore.mem_erase hentry⟩
      rw [hlast] at ih
      exact herased.trans ih

private theorem files_refresh (fs : FileSystem) (project : Project) (paths : List Path) :
    (Extraction.refresh fs project paths).2.base = project.base ∧
      (Extraction.refresh fs project paths).2.aliases = project.aliases ∧
      (Extraction.refresh fs project paths).2.files ⊆ project.files := by
  induction paths generalizing project with
  | nil => exact ⟨rfl, rfl, fun _ hfile => List.mem_of_mem_filter hfile⟩
  | cons path rest ih =>
      rw [Extraction.refresh]
      cases hremove : project.remove fs path with
      | error e => exact ⟨rfl, rfl, List.Subset.refl _⟩
      | ok smaller =>
          obtain ⟨place, -, rfl⟩ : ∃ place, fs.canonical path = .ok place ∧
              project.erase place = smaller := by
            unfold remove at hremove
            cases hplace : fs.canonical path with
            | error e => simp [hplace, bind, Except.bind] at hremove
            | ok place =>
                rw [hplace] at hremove
                injection hremove with hremove
                exact ⟨place, rfl, hremove⟩
          obtain ⟨hbase, haliases, hfiles⟩ := ih (project.erase place)
          exact ⟨hbase, haliases, fun _ hfile => List.mem_of_mem_filter (hfiles hfile)⟩

private theorem forgets_invalidate (fs : FileSystem) (d : Documenter) :
    Forgets d (d.invalidate fs).2 := by
  have hdropped := forgets_dropOutdated fs d.state.store.keys d
  unfold invalidate
  generalize dropOutdated fs d.state.store.keys d = result at hdropped ⊢
  obtain ⟨_ | e, dropped, after⟩ := result
  · have hrefreshed := files_refresh fs after.state.project dropped
    dsimp only at hdropped ⊢
    generalize Extraction.refresh fs after.state.project dropped = result at hrefreshed ⊢
    obtain ⟨fault, project⟩ := result
    obtain ⟨hbase, haliases, hfiles⟩ := hrefreshed
    have hrefreshed : Forgets after { after with state := { after.state with project } } :=
      ⟨rfl, hbase, haliases, hfiles, List.Subset.refl _⟩
    cases fault with
    | none => exact hdropped.trans hrefreshed
    | some e => exact hdropped.trans hrefreshed
  · exact hdropped

theorem document_eq (d : Documenter) (fs : FileSystem) (path : Path) :
    d.document fs path =
      (fs.canonical path).map fun place =>
        ((recordAt d.setup fs place d.state).1,
          { d with state := (recordAt d.setup fs place d.state).2 }) := by
  unfold document
  cases fs.canonical path <;> rfl

/-- Documenting the text of a canonical path is asking for the record there. -/
theorem perform_document {fs : FileSystem} {place : Path} (hplace : place.Settled)
    (hwellFormed : place.WellFormed) :
    d.perform fs (.document place.toString) =
      { d with state := (recordAt d.setup fs place d.state).2 } := by
  rw [perform, Path.ofString_toString hwellFormed, document_eq,
    FileSystem.canonical_of_settled hplace]
  rfl

/-- Documenting a directory is asking for the records of the components listed there, one after the
other. -/
theorem exists_of_documentBelow {fs : FileSystem} {directory : Option Path}
    {records : List ComponentRecord} {after : Documenter}
    (hdone : d.documentBelow fs directory = .ok (records, after)) :
    ∃ listed paths : List Path, d.componentFiles fs directory = .ok listed ∧
      listed.map fs.canonical = paths.map .ok ∧
      records = (recordsAt d.setup fs paths d.state).1.mergeSort (fun a b => a.name ≤ b.name) ∧
      after = { d with state := (recordsAt d.setup fs paths d.state).2 } := by
  simp only [documentBelow, bind, Except.bind, pure, Except.pure] at hdone
  split at hdone
  · cases hdone
  · next listed hlisted =>
      split at hdone
      · cases hdone
      · next paths hpaths =>
          injection hdone with hdone
          injection hdone with hrecords hafter
          refine ⟨listed, paths, hlisted, ?_, hrecords.symm, hafter.symm⟩
          refine map_eq_map_ok_of_imp (fun given place hplace => ?_) (mapM_eq_ok.mp hpaths)
          cases hcanonical : fs.canonical given <;> simp_all

/-- A directory is documented if all components listed there have canonical paths. -/
theorem documentBelow_of_canonical {fs : FileSystem} {directory : Option Path}
    {listed paths : List Path} (hlisted : d.componentFiles fs directory = .ok listed)
    (hpaths : listed.map fs.canonical = paths.map .ok) :
    d.documentBelow fs directory =
      .ok ((recordsAt d.setup fs paths d.state).1.mergeSort (fun a b => a.name ≤ b.name),
        { d with state := (recordsAt d.setup fs paths d.state).2 }) := by
  have hmapM {f : Path → Except ListingProblem Path}
      (hf : ∀ given place, fs.canonical given = .ok place → f given = .ok place) :
      listed.mapM f = .ok paths :=
    mapM_eq_ok.mpr (map_eq_map_ok_of_imp hf hpaths)
  unfold documentBelow
  simp only [hlisted, bind, Except.bind]
  rw [hmapM fun given place hplace => by simp [hplace]]
  rfl

theorem settled_of_map_canonical {fs : FileSystem} {listed paths : List Path}
    (hpaths : listed.map fs.canonical = paths.map .ok) : ∀ p ∈ paths, p.Settled := by
  intro p hp
  obtain ⟨given, -, hplace⟩ := exists_of_map_eq_map_ok hpaths hp
  exact FileSystem.settled_of_canonical hplace

/-- Documenting a directory asks for the records of the files listed there. -/
private theorem documentBelow_asks {directory : Option Path}
    (hdirectory : (directory.getD d.setup.componentsDirectory).WellFormed)
    {records : List ComponentRecord} {after : Documenter}
    (hdone : d.documentBelow disk.toFileSystem directory = .ok (records, after)) :
    ∃ paths : List Path, (∀ p ∈ paths, p.Settled ∧ p.WellFormed) ∧
      after = { d with state := (recordsAt d.setup disk.toFileSystem paths d.state).2 } := by
  obtain ⟨listed, paths, hlisted, hpaths, -, hafter⟩ := exists_of_documentBelow hdone
  refine ⟨paths, fun p hp => ?_, hafter⟩
  obtain ⟨given, hgiven, hplace⟩ := exists_of_map_eq_map_ok hpaths hp
  have hwellFormed : given.WellFormed := by
    simp only [componentFiles, bind, Except.bind, pure, Except.pure] at hlisted
    cases hbelow : ComponentFiles.below disk.toFileSystem
        (directory.getD d.setup.componentsDirectory)
        (directory.getD d.setup.componentsDirectory).toString (.ok d.setup.pattern) with
    | error e => simp [hbelow] at hlisted
    | ok all =>
        simp only [hbelow, Except.ok.injEq] at hlisted
        rw [← hlisted] at hgiven
        exact ComponentFiles.wellFormed_of_mem_below hdirectory hbelow
          (List.mem_of_mem_filter hgiven)
  exact ⟨FileSystem.settled_of_canonical hplace, Disk.wellFormed_canonical hwellFormed hplace⟩

/-- **Every operation asks for the records of some components or forgets something.** -/
theorem perform_cases (disk : Disk) (hdirectory : d.setup.componentsDirectory.WellFormed)
    (operation : Operation) :
    (∃ paths : List Path, (∀ p ∈ paths, p.Settled ∧ p.WellFormed) ∧
      d.perform disk.toFileSystem operation =
        { d with state := (recordsAt d.setup disk.toFileSystem paths d.state).2 }) ∨
    Forgets d (d.perform disk.toFileSystem operation) := by
  cases operation with
  | document path =>
      rw [perform, document_eq]
      cases hplace : disk.canonical (Path.ofString path) with
      | error e => exact .inr (.refl d)
      | ok place =>
          refine .inl ⟨[place], fun p hp => ?_, rfl⟩
          obtain rfl := List.mem_singleton.mp hp
          exact ⟨FileSystem.settled_of_canonical hplace,
            Disk.wellFormed_canonical (Path.wellFormed_ofString path) hplace⟩
  | documentBelow directory =>
      rw [perform]
      cases hdone : d.documentBelow disk.toFileSystem (directory.map Path.ofString) with
      | error e => exact .inr (.refl d)
      | ok result =>
          refine .inl (documentBelow_asks ?_ hdone)
          cases directory with
          | none => exact hdirectory
          | some text => exact Path.wellFormed_ofString text
  | isStale path => exact .inr (.refl d)
  | invalidate => exact .inr (forgets_invalidate _ d)
  | clear =>
      exact .inr ⟨rfl, rfl, rfl, fun _ hfile => List.mem_of_mem_filter hfile,
        by simp [perform, Documenter.clear]⟩
  | dispose =>
      exact .inr ⟨rfl, rfl, rfl, by simp [perform, Documenter.dispose, Project.clear],
        by simp [perform, Documenter.dispose]⟩

/-! ## What stays as it was set up -/

/-- A documenter that goes by the given configuration. -/
structure Follows (c : Configuration) (d : Documenter) : Prop where
  setup_eq : d.setup = c.setup
  base_eq : d.state.project.base = c.base
  aliases_eq : d.state.project.aliases = c.aliases

theorem Follows.forgets {after : Documenter} (hd : Follows c d) (hforgets : Forgets d after) :
    Follows c after :=
  ⟨hforgets.setup_eq.trans hd.setup_eq, hforgets.base_eq.trans hd.base_eq,
    hforgets.aliases_eq.trans hd.aliases_eq⟩

theorem Follows.recordAt (hd : Follows c d) {fs : FileSystem} {path : Path}
    (hpath : path.Settled) :
    Follows c { d with state := (Documenter.recordAt d.setup fs path d.state).2 } := by
  have hasked : Asked d.setup fs path d.state (Documenter.recordAt d.setup fs path d.state).2 :=
    recordAt_asked hpath
  have hkeeps := hasked.keeps
  exact ⟨hd.setup_eq, hkeeps.base_eq.trans hd.base_eq, hkeeps.aliases_eq.trans hd.aliases_eq⟩

theorem Follows.perform (hd : Follows c d) (operation : Operation) :
    Follows c (d.perform disk.toFileSystem operation) := by
  have hdirectory : d.setup.componentsDirectory.WellFormed :=
    hd.setup_eq ▸ c.directory_wellFormed
  rcases perform_cases disk hdirectory operation with ⟨paths, hpaths, hperform⟩ | hforgets
  · rw [hperform]
    refine recordsAt_preserves (motive := fun state => Follows c { d with state })
      (fun path hpath state hstate => ?_) hd
    exact Follows.recordAt hstate (hpaths path hpath).1
  · exact hd.forgets hforgets

end Documenter

/-- Whatever happens, a documenter goes by the configuration that it was made from. -/
theorem Session.follows_run {c : Configuration} {s : Session}
    (hs : Documenter.Follows c s.documenter) (history : List Event) :
    Documenter.Follows c (s.run history).documenter := by
  induction history generalizing s with
  | nil => exact hs
  | cons event rest ih =>
      cases event with
      | change disk => exact ih hs
      | call operation => exact ih (hs.perform operation)

/-- A property of states holds whatever happens, if asking for a record keeps it and so does
forgetting. -/
theorem Session.run_preserves {c : Configuration} {motive : DocumenterState → Prop}
    (hask : ∀ (fs : FileSystem) (path : Path), path.Settled → path.WellFormed →
      ∀ state, motive state → motive (Documenter.recordAt c.setup fs path state).2)
    (hforget : ∀ d after : Documenter, Documenter.Forgets d after → motive d.state →
      motive after.state)
    {s : Session} (hs : Documenter.Follows c s.documenter) (hstate : motive s.documenter.state)
    (history : List Event) : motive (s.run history).documenter.state := by
  induction history generalizing s with
  | nil => exact hstate
  | cons event rest ih =>
      cases event with
      | change disk => exact ih hs hstate
      | call operation =>
          refine ih (hs.perform operation) ?_
          have hdirectory : s.documenter.setup.componentsDirectory.WellFormed :=
            hs.setup_eq ▸ c.directory_wellFormed
          rcases Documenter.perform_cases s.disk hdirectory operation with
            ⟨paths, hpaths, hperform⟩ | hforgets
          · have hafter : motive (Documenter.recordsAt s.documenter.setup s.disk.toFileSystem paths
                s.documenter.state).2 := by
              rw [hs.setup_eq]
              exact Documenter.recordsAt_preserves
                (fun p hp state => hask _ p (hpaths p hp).1 (hpaths p hp).2 state) hstate
            rw [Session.next, hperform]
            exact hafter
          · exact hforget _ _ hforgets hstate

theorem Configuration.follows_session (c : Configuration) (disk : Disk) (history : List Event) :
    Documenter.Follows c (c.session disk history).documenter :=
  Session.follows_run ⟨rfl, rfl, rfl⟩ history

/-! ## A small configuration -/

/-- A disk without files, with the root for its current and home directory. -/
def Disk.blank : Disk := ⟨⟨.directory 0 [], [], []⟩, rfl, rfl, rfl⟩

/-- A disk with one file. -/
def Disk.holding (path text : String) : Disk := Disk.blank.write path (Text.bytesOf text) 0

/-- A configuration for the components in the root directory. -/
def Configuration.plain (selection : PropertySelection) : Configuration where
  setup := ⟨⟨.root, []⟩, OverrideFormat.all, ⟨.empty, []⟩, [], ["React."], selection⟩
  base := ⟨.root, []⟩
  aliases := []
  directory_wellFormed := fun _ hs => absurd hs List.not_mem_nil

/-- The names of the properties in a reply. -/
def Documenter.replyNames (reply : Except Fault (Option ComponentRecord × Documenter)) :
    Option (List String) :=
  (reply.toOption.bind Prod.fst).map fun record => record.properties.map Property.name

end ComponentDocs
