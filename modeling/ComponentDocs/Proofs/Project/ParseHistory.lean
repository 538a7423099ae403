import Mathlib.Data.List.Induction
import Mathlib.Data.List.Nodup
import ComponentDocs.Proofs.Extraction.Lockstep

/-!
# What a project holds, and since when

A project lives through calls, its own and those of extraction, while the files on disk change.
Whatever is called, what it does to the project is a sequence of acts (`ParseCall.exists_acts`):
adding a file, removing one, dropping those that have changed, or dropping all.  Each of these
leaves out some files or puts one at the end (`ParseAct.run_cases`).

So every file that is held was put there by one of the acts that lie behind the project, and has
been there ever since (`CreatedAt`); the files stand in the order of these acts
(`Chronicle`, `exists_chronicle`).  Once the changed files have been dropped, and until a file
changes again, extraction gives the same and reports the same as in a new project
(`held_since_added`).
-/

namespace ComponentDocs

open Source Project Extraction

/-! ## Acts -/

/-- A change to the files that a project holds. -/
inductive ParseAct where
  | add (path : Path)
  | remove (path : Path)
  | dropChanged
  | clear

namespace ParseAct

/-- The project after an act; one that fails changes nothing. -/
def run (fs : FileSystem) (P : Project) : ParseAct → Project
  | add path =>
    match P.add fs path with
    | .ok (_, after) => after
    | .error _ => P
  | remove path =>
    match P.remove fs path with
    | .ok after => after
    | .error _ => P
  | dropChanged => (P.dropChanged fs).2
  | clear => P.clear

/-- The project after several acts on the same files. -/
def runAll (fs : FileSystem) (P : Project) (acts : List ParseAct) : Project :=
  acts.foldl (run fs) P

variable {fs : FileSystem} {P Q : Project}

theorem run_add (fs : FileSystem) (P : Project) (path : Path) :
    run fs P (.add path) =
      match fs.canonical path with
      | .error _ => P
      | .ok place =>
        match P.fileAt fs place with
        | .error _ => P
        | .ok file => P.keeping file := by
  rw [run, add_eq]
  cases fs.canonical path with
  | error e => rfl
  | ok place =>
      dsimp only
      cases P.fileAt fs place <;> rfl

theorem run_remove (fs : FileSystem) (P : Project) (path : Path) :
    run fs P (.remove path) =
      match fs.canonical path with
      | .error _ => P
      | .ok place => P.erase place := by
  rw [run, Project.remove]
  cases fs.canonical path <;> rfl

/-- **An act leaves out some files, or puts one at the end** that was not held and that has been
read just then. -/
theorem run_cases (fs : FileSystem) (P : Project) (act : ParseAct) :
    (∃ keep : ParsedFile → Bool, run fs P act = { P with files := P.files.filter keep }) ∨
      ∃ path file, act = .add path ∧ fs.canonical path = .ok file.path ∧
        fs.read file.path = .ok file.source ∧ P.file? file.path = none ∧
        run fs P act = { P with files := P.files ++ [file] } := by
  have hunchanged : P = { P with files := P.files.filter fun _ => true } := by
    rw [List.filter_true]
  cases act with
  | remove path =>
      left
      rw [run_remove]
      cases fs.canonical path with
      | error e => exact ⟨_, hunchanged⟩
      | ok place => exact ⟨_, rfl⟩
  | dropChanged => exact .inl ⟨_, rfl⟩
  | clear => exact .inl ⟨fun _ => false, by rw [List.filter_false]; rfl⟩
  | add path =>
      rw [run_add]
      cases hplace : fs.canonical path with
      | error e => exact .inl ⟨_, hunchanged⟩
      | ok place =>
          dsimp only
          cases hfile : P.fileAt fs place with
          | error e => exact .inl ⟨_, hunchanged⟩
          | ok file =>
              obtain rfl := path_of_fileAt hfile
              by_cases hheld : (P.file? file.path).isSome
              · left
                exact ⟨_, (if_pos hheld).trans hunchanged⟩
              · right
                have hnone : P.file? file.path = none := Option.not_isSome_iff_eq_none.mp hheld
                refine ⟨path, file, rfl, hplace, ?_, hnone, if_neg hheld⟩
                simp only [fileAt, hnone] at hfile
                split at hfile
                · next source hsource =>
                    injection hfile with hfile
                    exact hfile ▸ hsource
                · cases hfile

theorem base_run (act : ParseAct) : (run fs P act).base = P.base := by
  rcases run_cases fs P act with ⟨keep, hrun⟩ | ⟨path, file, -, -, -, -, hrun⟩ <;> rw [hrun]

theorem aliases_run (act : ParseAct) : (run fs P act).aliases = P.aliases := by
  rcases run_cases fs P act with ⟨keep, hrun⟩ | ⟨path, file, -, -, -, -, hrun⟩ <;> rw [hrun]

/-- As long as the files on disk stay, a project whose files are as on disk stays one. -/
theorem current_run (hcurrent : Current fs P) (act : ParseAct) : Current fs (run fs P act) := by
  rcases run_cases fs P act with ⟨keep, hrun⟩ | ⟨path, file, -, -, hread, -, hrun⟩
  · rw [hrun]
    exact fun other hother => hcurrent other (List.mem_of_mem_filter hother)
  · rw [hrun]
    intro other hother
    rcases List.mem_append.mp hother with hbefore | hlast
    · exact hcurrent other hbefore
    · exact List.mem_singleton.mp hlast ▸ hread

end ParseAct

/-- An act with the files as they are on disk at its time. -/
abbrev TimedAct := FileSystem × ParseAct

/-- The project after acts at different times. -/
def replay (P : Project) (log : List TimedAct) : Project :=
  log.foldl (fun P timed => timed.2.run timed.1 P) P

section Replay

variable {fs : FileSystem} {P : Project}

theorem replay_map (fs : FileSystem) (P : Project) (acts : List ParseAct) :
    replay P (acts.map (fs, ·)) = ParseAct.runAll fs P acts := by
  rw [replay, List.foldl_map]
  rfl

theorem base_replay (log : List TimedAct) : (replay P log).base = P.base := by
  induction log generalizing P with
  | nil => rfl
  | cons timed rest ih => exact ih.trans (ParseAct.base_run timed.2)

theorem aliases_replay (log : List TimedAct) : (replay P log).aliases = P.aliases := by
  induction log generalizing P with
  | nil => rfl
  | cons timed rest ih => exact ih.trans (ParseAct.aliases_run timed.2)

theorem base_runAll (acts : List ParseAct) : (ParseAct.runAll fs P acts).base = P.base := by
  rw [← replay_map, base_replay]

theorem aliases_runAll (acts : List ParseAct) :
    (ParseAct.runAll fs P acts).aliases = P.aliases := by
  rw [← replay_map, aliases_replay]

end Replay

/-! ## Calls -/

/-- A call that concerns a project: one of its own operations, or one of extraction. -/
inductive ParseCall where
  | add (path : Path)
  | remove (path : Path)
  | dropChanged
  | resolve (importer : ParsedFile) (specifier : String)
  | clear
  | properties (namespaces : List String) (selection : PropertySelection) (path : Path)
      (given : String)
  | facts (path : Path)
  | refresh (paths : List Path)

/-- A path to which a module name resolves. -/
def IsModule (P : Project) (fs : FileSystem) (path : Path) : Prop :=
  ∃ importer specifier, P.moduleFor? fs importer specifier = .ok (some path)

namespace ParseCall

/-- The project after a call; a call that fails leaves what it has read until then. -/
def run (fs : FileSystem) (P : Project) : ParseCall → Project
  | add path => ParseAct.run fs P (.add path)
  | remove path => ParseAct.run fs P (.remove path)
  | dropChanged => (P.dropChanged fs).2
  | resolve _ _ => P
  | clear => P.clear
  | properties namespaces selection path given =>
    (Extraction.properties fs namespaces selection P path given).2.1
  | facts path =>
    match Extraction.facts fs P path with
    | .ok (_, after) => after
    | .error _ => P
  | refresh paths => (Extraction.refresh fs P paths).2

/-- The acts that a call is made of.  Extraction adds the file of the component, and then files of
modules that are resolved; a refresh removes files up to a path that cannot be made canonical, or
else all of them and those that have changed. -/
def ActsAs (fs : FileSystem) (P : Project) : ParseCall → List ParseAct → Prop
  | add path, acts => acts = [.add path]
  | remove path, acts => acts = [.remove path]
  | dropChanged, acts => acts = [.dropChanged]
  | resolve _ _, acts => acts = []
  | clear, acts => acts = [.clear]
  | properties _ _ path _, acts =>
    ∃ modules : List Path, acts = .add path :: modules.map .add ∧ ∀ m ∈ modules, IsModule P fs m
  | facts path, acts => acts = [.add path]
  | refresh paths, acts =>
    (∀ p ∈ paths, ∃ place, fs.canonical p = .ok place) ∧
        acts = paths.map .remove ++ [.dropChanged] ∨
      ∃ before bad after, paths = before ++ bad :: after ∧ (∃ e, fs.canonical bad = .error e) ∧
        (∀ p ∈ before, ∃ place, fs.canonical p = .ok place) ∧ acts = before.map .remove

end ParseCall

/-! ## What extraction adds -/

section Adding

variable {fs : FileSystem} {P Q R : Project}

/-- The second project is the first one with files of modules added. -/
def AddsModules (fs : FileSystem) (P Q : Project) : Prop :=
  ∃ modules : List Path, (∀ m ∈ modules, IsModule P fs m) ∧
    Q = ParseAct.runAll fs P (modules.map .add)

theorem AddsModules.refl (fs : FileSystem) (P : Project) : AddsModules fs P P :=
  ⟨[], fun _ hm => absurd hm List.not_mem_nil, rfl⟩

theorem IsModule.congr {path : Path} (hmodule : IsModule Q fs path) (hbase : Q.base = P.base)
    (haliases : Q.aliases = P.aliases) : IsModule P fs path := by
  obtain ⟨importer, specifier, hfound⟩ := hmodule
  refine ⟨importer, specifier, ?_⟩
  unfold moduleFor? moduleStems at hfound ⊢
  rwa [hbase, haliases] at hfound

theorem AddsModules.trans (hfirst : AddsModules fs P Q) (hsecond : AddsModules fs Q R) :
    AddsModules fs P R := by
  obtain ⟨modules, hmodules, rfl⟩ := hfirst
  obtain ⟨more, hmore, rfl⟩ := hsecond
  refine ⟨modules ++ more, fun m hm => ?_, ?_⟩
  · rcases List.mem_append.mp hm with hm | hm
    · exact hmodules m hm
    · exact (hmore m hm).congr (base_runAll _) (aliases_runAll _)
  · rw [List.map_append, ParseAct.runAll, ParseAct.runAll, ParseAct.runAll, List.foldl_append]

private theorem addsModules_resolveImport (file : ParsedFile) (name specifier exported : String)
    (w : Walk) :
    AddsModules fs w.project
      ((resolveImport fs file name specifier exported).run w).2.project := by
  unfold resolveImport
  rw [Walking.run_bind, Walking.run_get]
  dsimp only
  cases hmodule : w.project.moduleFor? fs file specifier with
  | error e => exact .refl _ _
  | ok found =>
      cases found with
      | none => exact .refl _ _
      | some path =>
          have hcanonical : fs.canonical path = .ok path :=
            FileSystem.canonical_of_settled (settled_of_moduleFor? hmodule)
          dsimp only
          rw [Walking.run_bind, Walking.run_load, hcanonical]
          dsimp only
          cases hfile : w.project.fileAt fs path with
          | error e => exact .refl _ _
          | ok target =>
              have hadds : AddsModules fs w.project (w.project.keeping target) := by
                refine ⟨[path], fun m hm => ?_, ?_⟩
                · obtain rfl := List.mem_singleton.mp hm
                  exact ⟨file, specifier, hmodule⟩
                · show _ = ParseAct.run fs w.project (.add path)
                  rw [ParseAct.run_add, hcanonical]
                  dsimp only
                  rw [hfile]
              dsimp only
              cases target.declaration? exported with
              | none => exact hadds
              | some declaration => exact hadds

/-- A walk adds files of modules, one after the other. -/
theorem stepwise_addsModules (fs : FileSystem) :
    Stepwise fs fun w after => AddsModules fs w.project after.project where
  refl w := .refl fs w.project
  trans := AddsModules.trans
  noting w n := .refl fs w.project
  marking w key := .refl fs w.project
  resolving file base w := by
    cases base with
    | qualifiedGeneric => exact .refl _ _
    | qualified text => exact .refl _ _
    | named name =>
        unfold resolveBase
        dsimp only
        cases file.declaration? name with
        | some declaration => exact .refl _ _
        | none =>
            cases file.import? name with
            | none => exact .refl _ _
            | some source => exact addsModules_resolveImport file name source.1 source.2 w

/-- Extraction adds the file of the component, if it can be read, and then files of modules. -/
private theorem exists_modules_properties (fs : FileSystem) (P : Project)
    (namespaces : List String) (selection : PropertySelection) (path : Path) (given : String) :
    AddsModules fs (ParseAct.run fs P (.add path))
      (Extraction.properties fs namespaces selection P path given).2.1 := by
  rw [properties_eq, outcome_project, ParseAct.run_add]
  cases fs.canonical path with
  | error e => exact .refl fs P
  | ok place =>
      dsimp only
      cases P.fileAt fs place with
      | error e => exact .refl fs P
      | ok file =>
          dsimp only
          cases hprops : propsDeclaration? file with
          | none =>
              rw [walkOf_of_none hprops]
              exact .refl fs _
          | some declaration =>
              rw [walkOf_of_some hprops]
              exact (stepwise_addsModules fs).expand _ _ [] file declaration
                ⟨P.keeping file, [], []⟩

private theorem run_properties_eq (fs : FileSystem) (P : Project) (namespaces : List String)
    (selection : PropertySelection) (path : Path) (given : String) :
    ∃ modules : List Path, (∀ m ∈ modules, IsModule P fs m) ∧
      (Extraction.properties fs namespaces selection P path given).2.1 =
        ParseAct.runAll fs P (.add path :: modules.map .add) := by
  obtain ⟨modules, hmodules, hafter⟩ :=
    exists_modules_properties fs P namespaces selection path given
  exact ⟨modules, fun m hm => (hmodules m hm).congr (ParseAct.base_run _) (ParseAct.aliases_run _),
    hafter⟩

/-- A refresh removes one file after the other, and drops the changed ones at the end. -/
private theorem refresh_eq (fs : FileSystem) (P : Project) (paths : List Path) :
    (∀ p ∈ paths, ∃ place, fs.canonical p = .ok place) ∧
        (Extraction.refresh fs P paths).2 =
          ParseAct.runAll fs P (paths.map .remove ++ [.dropChanged]) ∨
      ∃ before bad after, paths = before ++ bad :: after ∧ (∃ e, fs.canonical bad = .error e) ∧
        (∀ p ∈ before, ∃ place, fs.canonical p = .ok place) ∧
        (Extraction.refresh fs P paths).2 = ParseAct.runAll fs P (before.map .remove) := by
  induction paths generalizing P with
  | nil => exact .inl ⟨fun _ hp => absurd hp List.not_mem_nil, rfl⟩
  | cons path rest ih =>
      cases hplace : fs.canonical path with
      | error e =>
          have hremove : P.remove fs path = .error e := by
            rw [Project.remove, hplace]
            rfl
          refine .inr ⟨[], path, rest, rfl, ⟨e, hplace⟩, fun _ hp => absurd hp List.not_mem_nil, ?_⟩
          rw [Extraction.refresh, hremove]
          rfl
      | ok place =>
          have hremove : P.remove fs path = .ok (P.erase place) := by
            rw [Project.remove, hplace]
            rfl
          have hact : ParseAct.run fs P (.remove path) = P.erase place := by
            rw [ParseAct.run_remove, hplace]
          have hrefresh : Extraction.refresh fs P (path :: rest) =
              Extraction.refresh fs (ParseAct.run fs P (.remove path)) rest := by
            rw [Extraction.refresh, hremove, hact]
          rw [hrefresh]
          rcases ih (ParseAct.run fs P (.remove path)) with
            ⟨hall, hafter⟩ | ⟨before, bad, after, rfl, hbad, hall, hafter⟩
          · exact .inl ⟨List.forall_mem_cons.mpr ⟨⟨place, hplace⟩, hall⟩, hafter⟩
          · exact .inr ⟨path :: before, bad, after, rfl, hbad,
              List.forall_mem_cons.mpr ⟨⟨place, hplace⟩, hall⟩, hafter⟩

end Adding

namespace ParseCall

variable {fs : FileSystem} {P : Project}

/-- **A call does to the project what its acts do.** -/
theorem exists_acts (fs : FileSystem) (P : Project) (call : ParseCall) :
    ∃ acts, call.ActsAs fs P acts ∧ call.run fs P = ParseAct.runAll fs P acts := by
  cases call with
  | add path => exact ⟨_, rfl, rfl⟩
  | remove path => exact ⟨_, rfl, rfl⟩
  | dropChanged => exact ⟨_, rfl, rfl⟩
  | resolve importer specifier => exact ⟨_, rfl, rfl⟩
  | clear => exact ⟨_, rfl, rfl⟩
  | properties namespaces selection path given =>
      obtain ⟨modules, hmodules, hrun⟩ := run_properties_eq fs P namespaces selection path given
      exact ⟨_, ⟨modules, rfl, hmodules⟩, hrun⟩
  | facts path =>
      refine ⟨_, rfl, ?_⟩
      show _ = ParseAct.run fs P (.add path)
      simp only [run, Extraction.facts, ParseAct.run, bind, Except.bind, pure, Except.pure]
      cases P.add fs path <;> rfl
  | refresh paths =>
      rcases refresh_eq fs P paths with
        ⟨hall, hrun⟩ | ⟨before, bad, after, hpaths, hbad, hall, hrun⟩
      · exact ⟨_, .inl ⟨hall, rfl⟩, hrun⟩
      · exact ⟨_, .inr ⟨before, bad, after, hpaths, hbad, hall, rfl⟩, hrun⟩

/-- The path that a call adds before anything else. -/
def adds? : ParseCall → Option Path
  | add path => some path
  | properties _ _ path _ => some path
  | facts path => some path
  | _ => none

/-- A call that cannot add its file leaves the project as it was. -/
theorem run_of_add_error {call : ParseCall} {path : Path} {e : Fault}
    (hadds : call.adds? = some path) (hadd : P.add fs path = .error e) : call.run fs P = P := by
  have hact : ParseAct.run fs P (.add path) = P := by rw [ParseAct.run, hadd]
  cases call with
  | add given => exact Option.some.inj hadds ▸ hact
  | facts given =>
      obtain rfl := Option.some.inj hadds
      simp only [run, Extraction.facts, hadd, bind, Except.bind]
  | properties namespaces selection given name =>
      obtain rfl := Option.some.inj hadds
      rw [add_eq] at hadd
      rw [run, properties_eq]
      cases hplace : fs.canonical given with
      | error e => rfl
      | ok place =>
          rw [hplace] at hadd
          dsimp only at hadd ⊢
          cases hfile : P.fileAt fs place with
          | error e => rfl
          | ok file =>
              rw [hfile] at hadd
              cases hadd
  | _ => cases hadds

/-- A call that drops the changed files and does nothing after that. -/
def Drops (fs : FileSystem) : ParseCall → Prop
  | dropChanged => True
  | refresh paths => ∀ p ∈ paths, ∃ place, fs.canonical p = .ok place
  | _ => False

end ParseCall

/-! ## Histories -/

/-- What happens to a project: the files, and the current and home directory, become others, or
something is called. -/
inductive ParseEvent where
  | change (fs : FileSystem)
  | call (call : ParseCall)

/-- A project and the files on disk. -/
structure Parses where
  project : Project
  fs : FileSystem

namespace Parses

/-- A project with its files after an event. -/
def next (s : Parses) : ParseEvent → Parses
  | .change fs => { s with fs }
  | .call call => { s with project := call.run s.fs s.project }

/-- A project with its files after a history. -/
def run (s : Parses) (history : List ParseEvent) : Parses := history.foldl next s

end Parses

/-- The log of a history: the acts that its calls are made of, in order. -/
def LoggedAs (s : Parses) : List ParseEvent → List TimedAct → Prop
  | [], log => log = []
  | .change fs :: rest, log => LoggedAs { s with fs } rest log
  | .call call :: rest, log =>
    ∃ acts later, log = acts.map (s.fs, ·) ++ later ∧ call.ActsAs s.fs s.project acts ∧
      call.run s.fs s.project = ParseAct.runAll s.fs s.project acts ∧
      LoggedAs { s with project := call.run s.fs s.project } rest later

/-- The file has been held since the act with the given number: this added it from the bytes that
were on disk, when it was not held. -/
structure CreatedAt (P : Project) (log : List TimedAct) (n : ℕ) (file : ParsedFile) : Prop where
  added : ∃ fs path, log[n]? = some (fs, .add path) ∧ fs.canonical path = .ok file.path ∧
    fs.read file.path = .ok file.source
  fresh : (replay P (log.take n)).file? file.path = none
  stays : ∀ m, n < m → (replay P (log.take m)).file? file.path = some file

/-- The files of a project with the numbers of the acts that created them, in increasing order. -/
structure Chronicle (P : Project) (log : List TimedAct) (born : List (ℕ × ParsedFile)) :
    Prop where
  files_eq : born.map Prod.snd = (replay P log).files
  ordered : (born.map Prod.fst).Pairwise (· < ·)
  created : ∀ b ∈ born, CreatedAt P log b.1 b.2

section Replay

variable {P : Project} {log : List TimedAct} {n : ℕ} {file : ParsedFile}

theorem replay_append (P : Project) (before after : List TimedAct) :
    replay P (before ++ after) = replay (replay P before) after :=
  List.foldl_append

theorem replay_snoc (P : Project) (log : List TimedAct) (last : TimedAct) :
    replay P (log ++ [last]) = last.2.run last.1 (replay P log) :=
  replay_append P log [last]

/-- Every history has a log, and its acts lead to the same project. -/
theorem exists_log (s : Parses) (history : List ParseEvent) :
    ∃ log, LoggedAs s history log ∧ (s.run history).project = replay s.project log := by
  induction history generalizing s with
  | nil => exact ⟨[], rfl, rfl⟩
  | cons event rest ih =>
      cases event with
      | change fs => exact ih { s with fs }
      | call call =>
          obtain ⟨acts, hacts, hrun⟩ := call.exists_acts s.fs s.project
          obtain ⟨later, hlater, hproject⟩ := ih (s.next (.call call))
          refine ⟨acts.map (s.fs, ·) ++ later, ⟨acts, later, rfl, hacts, hrun, hlater⟩, ?_⟩
          rw [replay_append, replay_map, ← hrun]
          exact hproject

namespace CreatedAt

theorem lt_length (hcreated : CreatedAt P log n file) : n < log.length := by
  obtain ⟨fs, path, hact, -⟩ := hcreated.added
  exact (List.getElem?_eq_some_iff.mp hact).1

theorem settled (hcreated : CreatedAt P log n file) : file.path.Settled := by
  obtain ⟨fs, path, -, hplace, -⟩ := hcreated.added
  exact FileSystem.settled_of_canonical hplace

/-- In the end the file is the one at its path. -/
theorem file?_eq (hcreated : CreatedAt P log n file) :
    (replay P log).file? file.path = some file := by
  have hstays := hcreated.stays log.length hcreated.lt_length
  rwa [List.take_length] at hstays

/-- As long as the file is still held, one more act makes no difference. -/
theorem snoc (hcreated : CreatedAt P log n file) {last : TimedAct}
    (hheld : (replay P (log ++ [last])).file? file.path = some file) :
    CreatedAt P (log ++ [last]) n file where
  added := by
    obtain ⟨fs, path, hact, hadded⟩ := hcreated.added
    exact ⟨fs, path, by rw [List.getElem?_append_left hcreated.lt_length, hact], hadded⟩
  fresh := by
    rw [List.take_append_of_le_length (Nat.le_of_lt hcreated.lt_length)]
    exact hcreated.fresh
  stays m hm := by
    by_cases hle : m ≤ log.length
    · rw [List.take_append_of_le_length hle]
      exact hcreated.stays m hm
    · rw [List.take_of_length_le (by rw [List.length_append, List.length_singleton]; omega)]
      exact hheld

/-- A file that the last act adds is created by it. -/
theorem of_last {fs : FileSystem} {path : Path} (hplace : fs.canonical path = .ok file.path)
    (hread : fs.read file.path = .ok file.source)
    (hnew : (replay P log).file? file.path = none)
    (hrun : ParseAct.run fs (replay P log) (.add path) =
      { replay P log with files := (replay P log).files ++ [file] }) :
    CreatedAt P (log ++ [(fs, .add path)]) log.length file where
  added := ⟨fs, path, List.getElem?_concat_length, hplace, hread⟩
  fresh := by rwa [List.take_left]
  stays m hm := by
    rw [List.take_of_length_le (by rw [List.length_append, List.length_singleton]; omega),
      replay_snoc, hrun, file?, List.find?_append]
    rw [file?] at hnew
    simp [hnew]

end CreatedAt

namespace Chronicle

variable {born : List (ℕ × ParsedFile)}

/-- The files that are held have different paths. -/
theorem nodup_paths (hborn : Chronicle P log born) :
    ((replay P log).files.map ParsedFile.path).Nodup := by
  rw [← hborn.files_eq, List.map_map, List.nodup_iff_pairwise_ne, List.pairwise_map]
  refine (List.pairwise_map.mp hborn.ordered).imp_of_mem fun {b c} hb hc hlt hsame => ?_
  -- when the later one was created, the earlier one was at its path
  have hfresh := (hborn.created c hc).fresh
  have hheld := (hborn.created b hb).stays c.1 hlt
  rw [show b.2.path = c.2.path from hsame, hfresh] at hheld
  cases hheld

/-- A file that is held is the only one at its path. -/
theorem eq_of_path_eq (hborn : Chronicle P log born) {other : ParsedFile}
    (hfile : file ∈ (replay P log).files) (hother : other ∈ (replay P log).files)
    (hpath : other.path = file.path) : other = file :=
  List.inj_on_of_nodup_map hborn.nodup_paths hother hfile hpath

/-- Leaving out files keeps the others in order. -/
private theorem filter (hborn : Chronicle P log born) {last : TimedAct}
    {keep : ParsedFile → Bool}
    (hrun : replay P (log ++ [last]) =
      { replay P log with files := (replay P log).files.filter keep }) :
    Chronicle P (log ++ [last]) (born.filter fun b => keep b.2) where
  files_eq := by
    rw [hrun]
    show _ = (replay P log).files.filter keep
    rw [← hborn.files_eq, List.filter_map]
    rfl
  ordered := hborn.ordered.sublist (List.filter_sublist.map Prod.fst)
  created b hb := by
    obtain ⟨hmem, hkeep⟩ := List.mem_filter.mp hb
    have hheld : b.2 ∈ (replay P log).files :=
      hborn.files_eq ▸ List.mem_map.mpr ⟨b, hmem, rfl⟩
    refine (hborn.created b hmem).snoc ?_
    rw [hrun]
    show ((replay P log).files.filter keep).find? (·.path = b.2.path) = some b.2
    cases hfound : ((replay P log).files.filter keep).find? (·.path = b.2.path) with
    | none =>
        have hnone := List.find?_eq_none.mp hfound b.2 (List.mem_filter.mpr ⟨hheld, hkeep⟩)
        simp at hnone
    | some other =>
        have hother := List.mem_of_mem_filter (List.mem_of_find?_eq_some hfound)
        have hpath : other.path = b.2.path := by simpa using List.find?_some hfound
        rw [hborn.eq_of_path_eq hheld hother hpath]

/-- A file that the last act adds comes last. -/
private theorem concat (hborn : Chronicle P log born) {fs : FileSystem} {path : Path}
    (hplace : fs.canonical path = .ok file.path) (hread : fs.read file.path = .ok file.source)
    (hnew : (replay P log).file? file.path = none)
    (hrun : ParseAct.run fs (replay P log) (.add path) =
      { replay P log with files := (replay P log).files ++ [file] }) :
    Chronicle P (log ++ [(fs, .add path)]) (born ++ [(log.length, file)]) where
  files_eq := by
    rw [replay_snoc, hrun, List.map_append, hborn.files_eq]
    rfl
  ordered := by
    rw [List.map_append, List.pairwise_append]
    refine ⟨hborn.ordered, List.pairwise_singleton _ _, fun n hn m hm => ?_⟩
    obtain ⟨b, hb, rfl⟩ := List.mem_map.mp hn
    obtain rfl := List.mem_singleton.mp hm
    exact (hborn.created b hb).lt_length
  created b hb := by
    rcases List.mem_append.mp hb with hmem | hlast
    · refine (hborn.created b hmem).snoc ?_
      have hheld := (hborn.created b hmem).file?_eq
      rw [file?] at hheld
      rw [replay_snoc, hrun, file?, List.find?_append, hheld, Option.some_or]
    · obtain rfl := List.mem_singleton.mp hlast
      exact .of_last hplace hread hnew hrun

/-- One more act keeps the files in the order in which they were created. -/
theorem snoc (hborn : Chronicle P log born) (last : TimedAct) :
    ∃ born, Chronicle P (log ++ [last]) born := by
  obtain ⟨fs, act⟩ := last
  rcases ParseAct.run_cases fs (replay P log) act with
    ⟨keep, hrun⟩ | ⟨path, file, rfl, hplace, hread, hnew, hrun⟩
  · exact ⟨_, hborn.filter ((replay_snoc P log (fs, act)).trans hrun)⟩
  · exact ⟨_, hborn.concat hplace hread hnew hrun⟩

end Chronicle

/-- **The files of a project stand in the order of the acts that created them**, each as it was on
disk at that time. -/
theorem exists_chronicle (hfiles : P.files = []) (log : List TimedAct) :
    ∃ born, Chronicle P log born := by
  induction log using List.reverseRecOn with
  | nil =>
      exact ⟨[], hfiles.symm, List.Pairwise.nil, fun _ hb => absurd hb List.not_mem_nil⟩
  | append_singleton log last ih =>
      obtain ⟨born, hborn⟩ := ih
      exact hborn.snoc last

end Replay

/-! ## After changed files have been dropped -/

section Dropped

variable {fs : FileSystem} {P : Project}

/-- What is dropped, and what is left. -/
theorem dropChanged_eq (fs : FileSystem) (P : Project) :
    P.dropChanged fs =
      ((P.files.filter fun file => fs.read file.path ≠ .ok file.source).map ParsedFile.path,
        { P with files := P.files.filter fun file => fs.read file.path = .ok file.source }) := by
  rw [dropChanged, funext (isCurrent_eq fs)]
  simp only [decide_not]

theorem current_dropChanged (fs : FileSystem) (P : Project) : Current fs (P.dropChanged fs).2 := by
  rw [dropChanged_eq]
  exact fun file hfile => of_decide_eq_true (List.mem_filter.mp hfile).2

private theorem current_runAll (hcurrent : Current fs P) (acts : List ParseAct) :
    Current fs (ParseAct.runAll fs P acts) := by
  induction acts generalizing P with
  | nil => exact hcurrent
  | cons act rest ih => exact ih (ParseAct.current_run hcurrent act)

/-- The first project has the files as they are on disk, and resolves modules as the second one. -/
structure UpToDate (fs : FileSystem) (P Q : Project) : Prop where
  current : Current fs P
  base_eq : P.base = Q.base
  aliases_eq : P.aliases = Q.aliases

theorem UpToDate.run {Q : Project} (hP : UpToDate fs P Q) (call : ParseCall) :
    UpToDate fs (call.run fs P) Q := by
  obtain ⟨acts, -, hrun⟩ := call.exists_acts fs P
  rw [hrun]
  exact ⟨current_runAll hP.current acts, (base_runAll acts).trans hP.base_eq,
    (aliases_runAll acts).trans hP.aliases_eq⟩

theorem UpToDate.runs {Q : Project} (hP : UpToDate fs P Q) (calls : List ParseCall) :
    UpToDate fs (calls.foldl (ParseCall.run fs) P) Q := by
  induction calls generalizing P with
  | nil => exact hP
  | cons call rest ih => exact ih (hP.run call)

theorem UpToDate.sameView {Q : Project} (hP : UpToDate fs P Q) (hQ : Q.files = []) :
    SameView fs P Q :=
  sameView_of_current hP.current hQ hP.base_eq hP.aliases_eq

/-- A call that ends by dropping the changed files leaves those that are as on disk. -/
theorem upToDate_of_drops {call : ParseCall} (hdrops : call.Drops fs) :
    UpToDate fs (call.run fs P) P := by
  obtain ⟨acts, hacts, hrun⟩ := call.exists_acts fs P
  refine ⟨?_, by rw [hrun, base_runAll], by rw [hrun, aliases_runAll]⟩
  cases call with
  | dropChanged => exact current_dropChanged fs P
  | refresh paths =>
      rcases hacts with ⟨-, rfl⟩ | ⟨before, bad, after, rfl, ⟨e, hbad⟩, -, -⟩
      · rw [hrun, ParseAct.runAll, List.foldl_append]
        exact current_dropChanged fs _
      · obtain ⟨place, hplace⟩ := hdrops bad (by simp)
        rw [hbad] at hplace
        cases hplace
  | _ => exact hdrops.elim

end Dropped

/-- **What a project holds.**  Whatever has been called while the files changed, the project holds
at most one file at each canonical path, with the bytes that were on disk when it was added and not
held before, and in the order in which they were added.  A call whose file cannot be added changes
nothing.  Dropping the changed files gives the paths of just those that have gone or have other
bytes; and as long as no file changes after that, whatever is called, extraction gives the same
properties, reports and facts as in a new project. -/
theorem held_since_added (base : Path) (aliases : List Alias) (fs : FileSystem)
    (history : List ParseEvent) :
    let new : Project := { base, aliases }
    let s := Parses.run ⟨new, fs⟩ history
    (s.project.files.map ParsedFile.path).Nodup ∧
    (∃ log, ∃ born : List (ℕ × ParsedFile), LoggedAs ⟨new, fs⟩ history log ∧
      born.map Prod.snd = s.project.files ∧ (born.map Prod.fst).Pairwise (· < ·) ∧
      ∀ b ∈ born, b.2.path.Settled ∧ CreatedAt new log b.1 b.2) ∧
    (∀ (call : ParseCall) path e, call.adds? = some path → s.project.add s.fs path = .error e →
      call.run s.fs s.project = s.project) ∧
    s.project.dropChanged s.fs =
      ((s.project.files.filter fun file => s.fs.read file.path ≠ .ok file.source).map
          ParsedFile.path,
        { s.project with
          files := s.project.files.filter fun file => s.fs.read file.path = .ok file.source }) ∧
    ∀ call : ParseCall, call.Drops s.fs → ∀ calls : List ParseCall,
      let after := calls.foldl (ParseCall.run s.fs) (call.run s.fs s.project)
      Current s.fs after ∧ ∀ namespaces selection path given,
        let extracted := properties s.fs namespaces selection after path given
        let anew := properties s.fs namespaces selection new path given
        extracted.1 = anew.1 ∧ extracted.2.2 = anew.2.2 ∧
          (facts s.fs after path).map Prod.fst = (facts s.fs new path).map Prod.fst := by
  intro new s
  obtain ⟨log, hlog, hproject⟩ := exists_log ⟨new, fs⟩ history
  obtain ⟨born, hborn⟩ := exists_chronicle (P := new) rfl log
  have hproject : s.project = replay new log := hproject
  have hbase : s.project.base = new.base := hproject ▸ base_replay log
  have haliases : s.project.aliases = new.aliases := hproject ▸ aliases_replay log
  refine ⟨hproject ▸ hborn.nodup_paths, ⟨log, born, hlog, hproject ▸ hborn.files_eq,
    hborn.ordered, fun b hb => ⟨(hborn.created b hb).settled, hborn.created b hb⟩⟩,
    fun call path e hadds hadd => ParseCall.run_of_add_error hadds hadd,
    dropChanged_eq s.fs s.project, fun call hdrops calls => ?_⟩
  intro after
  have hafter : UpToDate s.fs after new :=
    UpToDate.runs ⟨(upToDate_of_drops hdrops).current,
      (upToDate_of_drops hdrops).base_eq.trans hbase,
      (upToDate_of_drops hdrops).aliases_eq.trans haliases⟩ calls
  have hview : SameView s.fs after new := hafter.sameView rfl
  refine ⟨hafter.current, fun namespaces selection path given => ?_⟩
  obtain ⟨hproperties, hreports⟩ := properties_congr hview path
  exact ⟨hproperties, hreports, facts_congr hview path⟩

end ComponentDocs
