import Mathlib.Algebra.Order.BigOperators.Group.Finset
import ComponentDocs.Proofs.Extraction.Lockstep

/-!
# What extraction costs

The recursion through declarations, written without a bound on its depth and with count kept of what
it does (`Setting.expandFreely`).  Nothing in its definition makes it come to an end, so that it
does is a statement: extraction without a bound comes to the end to which `properties` comes, which
has one (`propertiesFreely_eq`).  On the way no declaration is expanded twice, no file is read
twice, and after the first call there is at most one for each base that a reachable declaration
names.

* **Ends and logs.**  `ComesTo` says where a counted step ends and what it logs.  There is a rule for
  each way in which steps are put together, so that the counted recursion is followed along the plain
  one.
* **Expenses.**  `Spends` says what a part of a walk may have logged.  Parts that follow each other
  add up (`Spends.append`), and a declaration that is expanded pays for the calls of its bases
  (`Spends.expanding`), which is what the bound on the calls rests on.
-/

namespace ComponentDocs.Extraction

open Source Project ComponentDocs.Graph

/-! ## Counted steps -/

/-- What a walk does that costs something. -/
inductive Action where
  /-- The recursion is called for a declaration. -/
  | call (key : DeclarationKey)
  /-- A declaration is expanded. -/
  | expansion (key : DeclarationKey)
  /-- The file at a place is read from its bytes. -/
  | reading (place : Path)
  deriving DecidableEq, Repr

namespace Action

/-- The declarations for which a log has calls. -/
def calls (log : List Action) : List DeclarationKey :=
  log.filterMap fun
    | .call key => some key
    | _ => none

/-- The declarations that a log has expansions of. -/
def expansions (log : List Action) : List DeclarationKey :=
  log.filterMap fun
    | .expansion key => some key
    | _ => none

/-- The places of which a log has readings. -/
def readings (log : List Action) : List Path :=
  log.filterMap fun
    | .reading place => some place
    | _ => none

end Action

/-- A step of a walk that logs what it does and may never come to an end. -/
abbrev Counting := ExceptT Fault (StateT Walk (StateT (List Action) Option))

namespace Counting

/-- Adds an action to the log. -/
def note (action : Action) : Counting Unit :=
  fun w log => some ((.ok (), w), log ++ [action])

/-- A step that costs nothing. -/
def plainly {α : Type} (step : Walking α) : Counting α := fun w log => some (step.run w, log)

/-- The file at a path, read if need be. -/
def load (fs : FileSystem) (path : Path) : Counting ParsedFile := do
  let project := (← plainly get).project
  match fs.canonical path with
  | .error e => throw e
  | .ok place =>
    match project.file? place with
    | some file => return file
    | none =>
      note (.reading place)
      match fs.read place with
      | .error e => throw (.file e)
      | .ok source =>
        let file := ParsedFile.ofSource place source
        plainly (modify fun w =>
          { w with project := { project with files := project.files ++ [file] } })
        return file

/-- The declaration that an imported name stands for. -/
def findImport (fs : FileSystem) (file : ParsedFile) (name specifier exported : String) :
    Counting (Option Node) := do
  match (← plainly get).project.moduleFor? fs file specifier with
  | .error e => throw e
  | .ok none =>
    plainly (Walking.report file.path .info
      ("Base type " ++ name ++ " comes from unresolved module " ++ specifier))
    return none
  | .ok (some path) =>
    let target ← load fs path
    match target.declaration? exported with
    | some declaration => return some (target, declaration)
    | none =>
      plainly (Walking.report path .info ("Base type " ++ exported ++ " not declared in module"))
      return none

/-- The declaration that a base stands for; only one that is imported may have to be read. -/
def findBase (fs : FileSystem) (file : ParsedFile) (base : BaseType) : Counting (Option Node) :=
  match base with
  | .named name =>
    match file.declaration? name, file.import? name with
    | none, some (specifier, exported) => findImport fs file name specifier exported
    | _, _ => plainly (resolveBase fs file base)
  | _ => plainly (resolveBase fs file base)

end Counting

/-! ## The recursion without a bound -/

open Counting in
/-- The properties of a declaration and its bases, to any depth; `path` are the declarations that
are being expanded. -/
def Setting.expandFreely (setting : Setting) (fs : FileSystem) (path : List DeclarationKey)
    (file : ParsedFile) (declaration : Declaration) : Counting (List Property) := do
  let key := (file.path, declaration.name)
  note (.call key)
  if path.contains key then
    plainly (Walking.report file.path .warning
      ("Inheritance cycle through " ++ declaration.name ++ "; not expanding it again"))
    return []
  if (← plainly get).expanded.contains key then return []
  note (.expansion key)
  plainly (modify fun w => { w with expanded := w.expanded ++ [key] })
  let own := members setting declaration
  if !setting.selection.inheritedProperties then return firstOfEachName own
  let inherited ← declaration.bases.mapM fun base => do
    match ← findBase fs file base with
    | some (target, base) => setting |>.expandFreely fs (key :: path) target base
    | none => return []
  return firstOfEachName (own ++ inherited.flatten)
partial_fixpoint

open Counting in
/-- The properties of the component at a path, sorted. -/
def extractFreely (fs : FileSystem) (namespaces : List String) (selection : PropertySelection)
    (path : Path) (given : String) : Counting (List Property) := do
  let file ← load fs path
  match propsDeclaration? file with
  | some declaration =>
    let setting := settingFor namespaces selection file declaration
    return sortProperties (← setting.expandFreely fs [] file declaration)
  | none =>
    plainly (modify (Walking.noting · ⟨given, .warning, "No Props declaration found"⟩))
    return []

/-- The properties of the component at a path, found without a bound, and what has been done. -/
def propertiesFreely (fs : FileSystem) (namespaces : List String) (selection : PropertySelection)
    (project : Project) (path : Path) (given : String) :
    Option ((List Property × Project × List Diagnostic) × List Action) :=
  (extractFreely fs namespaces selection path given ⟨project, [], []⟩ []).map
    fun (ending, log) => (outcome given ending, log)

/-! ## How counted steps end -/

/-- A counted step comes to an end and logs the given actions. -/
def ComesTo {α : Type} (step : Counting α) (w : Walk) (ending : Except Fault α × Walk)
    (actions : List Action) : Prop :=
  ∀ log, step w log = some (ending, log ++ actions)

namespace ComesTo

variable {α β : Type} {step : Counting α} {w mid : Walk} {actions more : List Action}

theorem plainly (step : Walking α) (w : Walk) :
    ComesTo (Counting.plainly step) w (step.run w) [] := fun log => by
  rw [List.append_nil]
  rfl

theorem pure (a : α) (w : Walk) : ComesTo (Pure.pure a) w (.ok a, w) [] := plainly (Pure.pure a) w

theorem failing (e : Fault) (w : Walk) : ComesTo (throw e : Counting α) w (.error e, w) [] :=
  plainly (throw e) w

theorem modifying (f : Walk → Walk) (w : Walk) :
    ComesTo (Counting.plainly (modify f)) w (.ok (), f w) [] := plainly (modify f) w

theorem note (action : Action) (w : Walk) :
    ComesTo (Counting.note action) w (.ok (), w) [action] := fun _ => rfl

theorem bind_ok {next : α → Counting β} {a : α} {ending : Except Fault β × Walk}
    (hstep : ComesTo step w (.ok a, mid) actions) (hnext : ComesTo (next a) mid ending more) :
    ComesTo (step >>= next) w ending (actions ++ more) := by
  intro log
  rw [← List.append_assoc, ← hnext]
  change ((step w log).bind fun r => ExceptT.bindCont next r.1.1 r.1.2 r.2) = _
  rw [hstep]
  rfl

theorem bind_error {next : α → Counting β} {e : Fault}
    (hstep : ComesTo step w (.error e, mid) actions) :
    ComesTo (step >>= next) w (.error e, mid) actions := by
  intro log
  change ((step w log).bind fun r => ExceptT.bindCont next r.1.1 r.1.2 r.2) = _
  rw [hstep]
  rfl

theorem bind_get {next : Walk → Counting β} {ending : Except Fault β × Walk}
    (hnext : ComesTo (next w) w ending actions) :
    ComesTo (Counting.plainly get >>= next) w ending actions :=
  (plainly get w).bind_ok hnext

theorem map {ending : Except Fault α × Walk} (hstep : ComesTo step w ending actions) (f : α → β) :
    ComesTo (step >>= fun a => Pure.pure (f a)) w (ending.1.map f, ending.2) actions := by
  obtain ⟨_ | a, last⟩ := ending
  · exact hstep.bind_error
  · rw [← List.append_nil actions]
    exact hstep.bind_ok (pure (f a) last)

end ComesTo

/-! ## What may be spent -/

/-- The number of bases that a declaration names. -/
def basesNamed (P : Project) (fs : FileSystem) (key : DeclarationKey) : ℕ :=
  ((node? P fs key).map fun n => n.2.bases.length).getD 0

/-- What a part of a walk may have done that goes on from the declarations of `starts`, after
`tries` attempts to find them: it has expanded what was not expanded before and read what was not
read before, nothing of it twice, and has called for no more than it tried and than the expanded
declarations name. -/
structure Spends {β : Type} (P : Project) (fs : FileSystem) (starts : List DeclarationKey)
    (tries : ℕ) (w : Walk) (ending : Except Fault β × Walk) (actions : List Action) : Prop where
  keeps : Extends fs w.project ending.2.project
  expanded_eq : ending.2.expanded = w.expanded ++ Action.expansions actions
  expansions_nodup : (Action.expansions actions).Nodup
  expansions_new : ∀ key ∈ Action.expansions actions, key ∉ w.expanded
  expansions_reached : ∀ key ∈ Action.expansions actions,
    ∃ start ∈ starts, Reaches (basesOf P fs) start key
  calls_le : (Action.calls actions).length ≤
    tries + ((Action.expansions actions).map (basesNamed P fs)).sum
  readings_nodup : (Action.readings actions).Nodup
  readings_new : ∀ place ∈ Action.readings actions, w.project.file? place = none
  /-- Only what is read last may be missing in the end. -/
  readings_kept : ∀ b, ending.1 = .ok b → ∀ place ∈ Action.readings actions,
    ending.2.project.file? place ≠ none

namespace Action

variable (first second : List Action)

@[simp] theorem calls_append : calls (first ++ second) = calls first ++ calls second :=
  List.filterMap_append

@[simp] theorem expansions_append :
    expansions (first ++ second) = expansions first ++ expansions second :=
  List.filterMap_append

@[simp] theorem readings_append :
    readings (first ++ second) = readings first ++ readings second :=
  List.filterMap_append

end Action

namespace Spends

variable {β γ : Type} {P : Project} {fs : FileSystem} {starts others : List DeclarationKey}
  {tries further : ℕ} {w mid : Walk} {ending : Except Fault β × Walk} {actions more : List Action}

/-- A part that does nothing but report. -/
theorem nothing (hproject : ending.2.project = w.project)
    (hexpanded : ending.2.expanded = w.expanded) : Spends P fs starts tries w ending [] where
  keeps := hproject ▸ .refl fs _
  expanded_eq := by simp [hexpanded, Action.expansions]
  expansions_nodup := List.nodup_nil
  expansions_new := by simp [Action.expansions]
  expansions_reached := by simp [Action.expansions]
  calls_le := by simp [Action.calls]
  readings_nodup := List.nodup_nil
  readings_new := by simp [Action.readings]
  readings_kept := by simp [Action.readings]

/-- A part that reads one file which has not been read before. -/
theorem reading {place : Path} (hnew : w.project.file? place = none)
    (hkeeps : Extends fs w.project ending.2.project) (hexpanded : ending.2.expanded = w.expanded)
    (hkept : ∀ b, ending.1 = .ok b → ending.2.project.file? place ≠ none) :
    Spends P fs starts tries w ending [.reading place] where
  keeps := hkeeps
  expanded_eq := by simp [hexpanded, Action.expansions]
  expansions_nodup := List.nodup_nil
  expansions_new := by simp [Action.expansions]
  expansions_reached := by simp [Action.expansions]
  calls_le := by simp [Action.calls]
  readings_nodup := List.nodup_singleton place
  readings_new := by simp [Action.readings, hnew]
  readings_kept b hb := by simpa [Action.readings] using hkept b hb

/-- A call that finds nothing to expand. -/
theorem call (key : DeclarationKey) (hproject : ending.2.project = w.project)
    (hexpanded : ending.2.expanded = w.expanded) :
    Spends P fs [key] 1 w ending [.call key] where
  keeps := hproject ▸ .refl fs _
  expanded_eq := by simp [hexpanded, Action.expansions]
  expansions_nodup := List.nodup_nil
  expansions_new := by simp [Action.expansions]
  expansions_reached := by simp [Action.expansions]
  calls_le := by simp [Action.calls, Action.expansions]
  readings_nodup := List.nodup_nil
  readings_new := by simp [Action.readings]
  readings_kept := by simp [Action.readings]

/-- A call that expands a declaration pays for the calls that its bases cost. -/
theorem expanding {n : Node} (hn : Shown P fs n) (hnew : n.key ∉ w.expanded)
    (hbelow : Spends P fs (basesOf P fs n.key) n.2.bases.length (Walking.marking w n.key) ending
      actions) :
    Spends P fs [n.key] 1 w ending (.call n.key :: .expansion n.key :: actions) where
  keeps := hbelow.keeps
  expanded_eq := by
    rw [hbelow.expanded_eq, Walking.marking, List.append_assoc]
    rfl
  expansions_nodup := by
    refine List.nodup_cons.mpr ⟨fun hagain => ?_, hbelow.expansions_nodup⟩
    exact hbelow.expansions_new _ hagain (by simp [Walking.marking])
  expansions_new key hkey := by
    rcases List.mem_cons.mp hkey with rfl | hkey
    · exact hnew
    · exact fun hold => hbelow.expansions_new key hkey (List.mem_append_left _ hold)
  expansions_reached key hkey := by
    refine ⟨n.key, List.mem_singleton.mpr rfl, ?_⟩
    rcases List.mem_cons.mp hkey with rfl | hkey
    · exact .refl
    · obtain ⟨start, hstart, hreach⟩ := hbelow.expansions_reached key hkey
      exact .head hstart hreach
  calls_le := by
    have hcalls := hbelow.calls_le
    have hnamed : basesNamed P fs n.key = n.2.bases.length := by
      rw [basesNamed, hn.node?_key]
      rfl
    change (Action.calls actions).length + 1 ≤
      1 + (basesNamed P fs n.key + ((Action.expansions actions).map (basesNamed P fs)).sum)
    omega
  readings_nodup := hbelow.readings_nodup
  readings_new := hbelow.readings_new
  readings_kept := hbelow.readings_kept

/-- What comes of a part does not matter for what it has spent, only whether it has failed. -/
theorem map (hspends : Spends P fs starts tries w ending actions) (f : β → γ) :
    Spends P fs starts tries w (ending.1.map f, ending.2) actions :=
  { hspends with
    readings_kept := fun c hc => by
      obtain ⟨_ | b, last⟩ := ending
      · cases hc
      · exact hspends.readings_kept b rfl }

theorem of_error {e : Fault}
    (hspends : Spends P fs starts tries w ((.error e, mid) : Except Fault β × Walk) actions) :
    Spends P fs starts tries w ((.error e, mid) : Except Fault γ × Walk) actions :=
  { hspends with readings_kept := fun _ hc => by cases hc }

theorem mono (hspends : Spends P fs starts tries w ending actions) (hstarts : starts ⊆ others)
    (htries : tries ≤ further) : Spends P fs others further w ending actions :=
  { hspends with
    expansions_reached := fun key hkey =>
      (hspends.expansions_reached key hkey).imp fun _ h => ⟨hstarts h.1, h.2⟩
    calls_le := hspends.calls_le.trans (Nat.add_le_add_right htries _) }

/-- Parts that follow each other add up. -/
theorem append {b : β} {last : Except Fault γ × Walk}
    (hfirst : Spends P fs starts tries w (.ok b, mid) actions)
    (hsecond : Spends P fs others further mid last more) :
    Spends P fs (starts ++ others) (tries + further) w last (actions ++ more) where
  keeps := hfirst.keeps.trans hsecond.keeps
  expanded_eq := by
    rw [hsecond.expanded_eq, hfirst.expanded_eq, Action.expansions_append, List.append_assoc]
  expansions_nodup := by
    rw [Action.expansions_append]
    refine hfirst.expansions_nodup.append hsecond.expansions_nodup fun key hkey hagain => ?_
    refine hsecond.expansions_new key hagain ?_
    rw [hfirst.expanded_eq]
    exact List.mem_append_right _ hkey
  expansions_new key hkey := by
    rw [Action.expansions_append, List.mem_append] at hkey
    refine hkey.elim (hfirst.expansions_new key) fun hkey hold => ?_
    refine hsecond.expansions_new key hkey ?_
    rw [hfirst.expanded_eq]
    exact List.mem_append_left _ hold
  expansions_reached key hkey := by
    rw [Action.expansions_append, List.mem_append] at hkey
    rcases hkey with hkey | hkey
    · obtain ⟨start, hstart, hreach⟩ := hfirst.expansions_reached key hkey
      exact ⟨start, List.mem_append_left _ hstart, hreach⟩
    · obtain ⟨start, hstart, hreach⟩ := hsecond.expansions_reached key hkey
      exact ⟨start, List.mem_append_right _ hstart, hreach⟩
  calls_le := by
    have hcalls := hfirst.calls_le
    have hcalls' := hsecond.calls_le
    rw [Action.calls_append, Action.expansions_append, List.map_append, List.sum_append,
      List.length_append]
    omega
  readings_nodup := by
    rw [Action.readings_append]
    refine hfirst.readings_nodup.append hsecond.readings_nodup fun place hplace hagain => ?_
    exact hfirst.readings_kept b rfl place hplace (hsecond.readings_new place hagain)
  readings_new place hplace := by
    rw [Action.readings_append, List.mem_append] at hplace
    refine hplace.elim (hfirst.readings_new place) fun hplace => ?_
    exact hfirst.keeps.file?_eq_none (hsecond.readings_new place hplace)
  readings_kept c hc place hplace := by
    rw [Action.readings_append, List.mem_append] at hplace
    refine hplace.elim (fun hplace hnone => ?_) (hsecond.readings_kept c hc place)
    exact hfirst.readings_kept b rfl place hplace (hsecond.keeps.file?_eq_none hnone)

end Spends

/-- A counted step comes to an end and spends no more than it may. -/
def Costs {β : Type} (P : Project) (fs : FileSystem) (starts : List DeclarationKey) (tries : ℕ)
    (step : Counting β) (w : Walk) (ending : Except Fault β × Walk) : Prop :=
  ∃ actions, ComesTo step w ending actions ∧ Spends P fs starts tries w ending actions

namespace Costs

variable {β γ : Type} {P : Project} {fs : FileSystem} {starts others : List DeclarationKey}
  {tries further : ℕ} {w mid : Walk} {step : Counting β} {next : β → Counting γ}

/-- A step that only reports costs nothing. -/
theorem nothing {ending : Except Fault β × Walk} (hends : ComesTo step w ending [])
    (hproject : ending.2.project = w.project) (hexpanded : ending.2.expanded = w.expanded) :
    Costs P fs starts tries step w ending :=
  ⟨[], hends, .nothing hproject hexpanded⟩

theorem bind_get {next : Walk → Counting β} {ending : Except Fault β × Walk}
    (hnext : Costs P fs starts tries (next w) w ending) :
    Costs P fs starts tries (Counting.plainly get >>= next) w ending := by
  obtain ⟨actions, hends, hspends⟩ := hnext
  exact ⟨actions, hends.bind_get, hspends⟩

theorem bind_ok {b : β} {ending : Except Fault γ × Walk}
    (hstep : Costs P fs starts tries step w (.ok b, mid))
    (hnext : Costs P fs others further (next b) mid ending) :
    Costs P fs (starts ++ others) (tries + further) (step >>= next) w ending := by
  obtain ⟨actions, hends, hspends⟩ := hstep
  obtain ⟨more, hends', hspends'⟩ := hnext
  exact ⟨actions ++ more, hends.bind_ok hends', hspends.append hspends'⟩

/-- A step that calls for nothing may stand in front of any other. -/
theorem bind_free {b : β} {ending : Except Fault γ × Walk}
    (hstep : Costs P fs [] 0 step w (.ok b, mid))
    (hnext : Costs P fs starts tries (next b) mid ending) :
    Costs P fs starts tries (step >>= next) w ending := by
  simpa using hstep.bind_ok hnext

theorem bind_error {e : Fault} (hstep : Costs P fs starts tries step w (.error e, mid)) :
    Costs P fs starts tries (step >>= next) w (.error e, mid) := by
  obtain ⟨actions, hends, hspends⟩ := hstep
  exact ⟨actions, hends.bind_error, hspends.of_error⟩

theorem map {ending : Except Fault β × Walk} (hstep : Costs P fs starts tries step w ending)
    (f : β → γ) :
    Costs P fs starts tries (step >>= fun b => pure (f b)) w (ending.1.map f, ending.2) := by
  obtain ⟨actions, hends, hspends⟩ := hstep
  exact ⟨actions, hends.map f, hspends.map f⟩

theorem mono {ending : Except Fault β × Walk} (hstep : Costs P fs starts tries step w ending)
    (hstarts : starts ⊆ others) (htries : tries ≤ further) :
    Costs P fs others further step w ending := by
  obtain ⟨actions, hends, hspends⟩ := hstep
  exact ⟨actions, hends, hspends.mono hstarts htries⟩

/-- What is spent depends on no more than the files that a project shows. -/
theorem congr {Q : Project} {ending : Except Fault β × Walk} (hview : SameView fs Q P)
    (hcosts : Costs Q fs starts tries step w ending) : Costs P fs starts tries step w ending := by
  obtain ⟨actions, hends, hspends⟩ := hcosts
  have hnamed : basesNamed Q fs = basesNamed P fs := by
    funext key
    rw [basesNamed, basesNamed, node?_congr hview]
  exact ⟨actions, hends, { hspends with
    expansions_reached := basesOf_congr hview ▸ hspends.expansions_reached
    calls_le := hnamed ▸ hspends.calls_le }⟩

end Costs

/-! ## Reading -/

section Finding

variable {P : Project} {fs : FileSystem}

/-- Reading a file that has been kept costs nothing, reading another one costs one reading. -/
theorem load_costs (P : Project) (fs : FileSystem) (path : Path) (w : Walk) :
    Costs P fs [] 0 (Counting.load fs path) w ((Walking.load fs path).run w) := by
  rw [Walking.run_load]
  refine .bind_get ?_
  cases fs.canonical path with
  | error e => exact .nothing (.failing e w) rfl rfl
  | ok place =>
      dsimp only
      cases hkept : w.project.file? place with
      | some file =>
          have hfile : w.project.fileAt fs place = .ok file := by rw [fileAt, hkept]
          have hsame : w.project.keeping file = w.project := by
            rw [keeping, path_of_file? hkept, hkept]
            rfl
          rw [hfile]
          dsimp only
          rw [hsame]
          exact .nothing (.pure file w) rfl rfl
      | none =>
          cases hread : fs.read place with
          | error e =>
              have hfile : w.project.fileAt fs place = .error (.file e) := by
                rw [fileAt, hkept, hread]
              rw [hfile]
              exact ⟨_, (ComesTo.note _ w).bind_ok (.failing (.file e) w),
                .reading hkept (.refl fs _) rfl (by simp)⟩
          | ok source =>
              have hfile : w.project.fileAt fs place = .ok (.ofSource place source) := by
                rw [fileAt, hkept, hread]
              have hkeeping : w.project.keeping (.ofSource place source) =
                  { w.project with files := w.project.files ++ [.ofSource place source] } := by
                rw [keeping, ParsedFile.ofSource, hkept]
                rfl
              rw [hfile]
              refine ⟨_, (ComesTo.note _ w).bind_ok ?_,
                .reading hkept (extends_keeping hfile) rfl fun file _ => ?_⟩
              · dsimp only
                rw [hkeeping]
                exact (ComesTo.modifying _ w).bind_ok (.pure _ _)
              · exact Option.isSome_iff_ne_none.mp
                  (isSome_file?_keeping w.project (.ofSource place source))

private theorem findImport_costs (P : Project) (fs : FileSystem) (file : ParsedFile)
    (name specifier exported : String) (w : Walk) :
    Costs P fs [] 0 (Counting.findImport fs file name specifier exported) w
      ((resolveImport fs file name specifier exported).run w) := by
  unfold resolveImport
  rw [Walking.run_bind, Walking.run_get]
  refine .bind_get ?_
  dsimp only
  cases w.project.moduleFor? fs file specifier with
  | error e => exact .nothing (.failing e w) rfl rfl
  | ok found =>
      cases found with
      | none => exact .nothing ((ComesTo.modifying _ w).bind_ok (.pure none _)) rfl rfl
      | some path =>
          have hload := load_costs P fs path w
          dsimp only
          rw [Walking.run_bind]
          rcases hrun : (Walking.load fs path).run w with ⟨e | target, after⟩
          · rw [hrun] at hload
            exact hload.bind_error
          · rw [hrun] at hload
            refine hload.bind_free ?_
            dsimp only
            cases target.declaration? exported with
            | some declaration => exact .nothing (.pure _ after) rfl rfl
            | none => exact .nothing ((ComesTo.modifying _ after).bind_ok (.pure none _)) rfl rfl

/-- Finding a base costs at most one reading. -/
theorem findBase_costs (P : Project) (fs : FileSystem) (file : ParsedFile) (base : BaseType)
    (w : Walk) :
    Costs P fs [] 0 (Counting.findBase fs file base) w ((resolveBase fs file base).run w) := by
  cases base with
  | qualifiedGeneric => exact .nothing (.plainly _ w) rfl rfl
  | qualified text => exact .nothing (.plainly _ w) rfl rfl
  | named name =>
      unfold Counting.findBase resolveBase
      dsimp only
      cases file.declaration? name with
      | some declaration => exact .nothing (.plainly _ w) rfl rfl
      | none =>
          cases file.import? name with
          | some source => exact findImport_costs P fs file name source.1 source.2 w
          | none => exact .nothing (.plainly _ w) rfl rfl

/-! ## The recursion -/

/-- What going on from a base yields. -/
def throughBaseFreely {β : Type} (fs : FileSystem) (file : ParsedFile)
    (go : ParsedFile → Declaration → Counting (List β)) (base : BaseType) : Counting (List β) := do
  match ← Counting.findBase fs file base with
  | some (target, declaration) => go target declaration
  | none => return []

/-- Going on from a base that stands for a declaration costs what going on from that does. -/
private theorem Finds.costs {β : Type} {file : ParsedFile} {fuel : ℕ} {path : List DeclarationKey}
    {base : BaseType} {m : Node} {w found : Walk} (hfile : ShownFile P fs file)
    {going : ParsedFile → Declaration → Counting (List β)}
    {go : ParsedFile → Declaration → Walking (List β)}
    (hgo : ∀ m : Node, Shown P fs m → ∀ w, Ready P fs fuel path w →
      Costs P fs [m.key] 1 (going m.1 m.2) w ((go m.1 m.2).run w))
    (hfinds : Finds P fs fuel path file base w (.ok (some m)) found) :
    Costs P fs [m.key] 1 (throughBaseFreely fs file going base) w ((go m.1 m.2).run found) := by
  have hfinding := findBase_costs P fs file base w
  rw [hfinds.run_eq] at hfinding
  have hm : Shown P fs m := hfile.shown_of_resolution hfinds.resolution_eq
  exact hfinding.bind_free (hgo m hm found hfinds.ready)

/-- Going on from the bases of a file costs one call for each base at most, and what going on from
each of them does. -/
private theorem throughBases_costs {β : Type} {file : ParsedFile} {fuel : ℕ}
    {path : List DeclarationKey} (hfile : ShownFile P fs file)
    {going : ParsedFile → Declaration → Counting (List β)}
    {go : ParsedFile → Declaration → Walking (List β)}
    (hgo : ∀ m : Node, Shown P fs m → ∀ w, Ready P fs fuel path w →
      Costs P fs [m.key] 1 (going m.1 m.2) w ((go m.1 m.2).run w))
    {bases : List BaseType} {w : Walk} {ending : Except Fault (List (List β)) × Walk}
    (hrun : BasesRun P fs fuel path file go bases w ending) :
    Costs P fs (bases.filterMap (baseKey? P fs file)) bases.length
      (bases.mapM (throughBaseFreely fs file going)) w ending := by
  induction hrun with
  | nil w => exact .nothing (.pure [] w) rfl rfl
  | @fault base _ w e found hfinds =>
      have hfinding := findBase_costs P fs file base w
      rw [hfinds.run_eq] at hfinding
      have hfailed : Costs P fs [] 0 (throughBaseFreely fs file going base) w (.error e, found) :=
        hfinding.bind_error
      rw [List.mapM_cons]
      exact hfailed.bind_error.mono (List.nil_subset _) (Nat.zero_le _)
  | @nothing base _ w found _ hfinds _ ih =>
      have hfinding := findBase_costs P fs file base w
      rw [hfinds.run_eq] at hfinding
      have hskipped : Costs P fs [] 0 (throughBaseFreely fs file going base) w (.ok [], found) :=
        hfinding.bind_free (.nothing (.pure [] found) rfl rfl)
      rw [List.mapM_cons, List.filterMap_cons_none hfinds.baseKey?_eq]
      exact (hskipped.bind_free (ih.map _)).mono (List.Subset.refl _) (Nat.le_succ _)
  | @broken base _ w m found _ _ hfinds hbranch _ =>
      have hcosts := hfinds.costs hfile hgo
      rw [hbranch] at hcosts
      rw [List.mapM_cons, List.filterMap_cons_some hfinds.baseKey?_eq]
      exact hcosts.bind_error.mono (by simp) (by simp)
  | @branch base _ w m found _ _ _ hfinds hbranch _ _ ih =>
      have hcosts := hfinds.costs hfile hgo
      rw [hbranch] at hcosts
      rw [List.mapM_cons, List.filterMap_cons_some hfinds.baseKey?_eq, List.length_cons,
        Nat.add_comm]
      exact hcosts.bind_ok (ih.map _)

variable {n : Node} {fuel : ℕ} {path : List DeclarationKey} {w : Walk}

/-- **The recursion without a bound comes to the end to which the one with a bound comes, and calls
for no more than the bases of the declarations that it expands.** -/
theorem expand_costs (setting : Setting) (hn : Shown P fs n) (hready : Ready P fs fuel path w) :
    Costs P fs [n.key] 1 (setting.expandFreely fs path n.1 n.2) w
      ((expand fs setting fuel path n.1 n.2).run w) := by
  induction fuel generalizing path n w with
  | zero => exact absurd rfl hready.fuel_pos
  | succ fuel ih =>
      rw [Setting.expandFreely, expand_run]
      have hcall := ComesTo.note (.call n.key) w
      have hpathIff : path.contains (n.1.path, n.2.name) = true ↔ n.key ∈ path :=
        List.contains_iff_mem
      have hseenIff : w.expanded.contains (n.1.path, n.2.name) = true ↔ n.key ∈ w.expanded :=
        List.contains_iff_mem
      by_cases hpath : n.key ∈ path
      · rw [if_pos hpath]
        refine ⟨_, hcall.bind_ok ?_, .call n.key rfl rfl⟩
        rw [if_pos (hpathIff.mpr hpath)]
        exact (ComesTo.modifying _ w).bind_ok (.pure [] _)
      · rw [if_neg hpath]
        by_cases hseen : n.key ∈ w.expanded
        · rw [if_pos hseen]
          refine ⟨_, hcall.bind_ok ?_, .call n.key rfl rfl⟩
          rw [if_neg (mt hpathIff.mp hpath)]
          refine .bind_get ?_
          rw [if_pos (hseenIff.mpr hseen)]
          exact .pure [] w
        · rw [if_neg hseen]
          have hexpansion := ComesTo.note (.expansion n.key) w
          have hmarking := ComesTo.modifying (Walking.marking · n.key) w
          cases hinherited : setting.selection.inheritedProperties with
          | false =>
              refine ⟨_, hcall.bind_ok ?_, .expanding hn hseen (.nothing rfl rfl)⟩
              rw [if_neg (mt hpathIff.mp hpath)]
              refine .bind_get ?_
              rw [if_neg (mt hseenIff.mp hseen)]
              exact hexpansion.bind_ok (hmarking.bind_ok (.pure _ _))
          | true =>
              have hbelow := throughBases_costs hn.toShownFile (fun m hm v hv => ih hm hv)
                (throughBases_basesRun (expand_continues setting fuel (n.key :: path)) n.2.bases
                  (hready.expanding hn hpath))
              rw [← hn.basesOf_key] at hbelow
              obtain ⟨actions, hends, hspends⟩ := hbelow
              refine ⟨_, hcall.bind_ok ?_, .expanding hn hseen (hspends.map _)⟩
              rw [if_neg (mt hpathIff.mp hpath)]
              refine .bind_get ?_
              rw [if_neg (mt hseenIff.mp hseen)]
              exact hexpansion.bind_ok (hmarking.bind_ok (hends.map _))

end Finding

/-! ## A whole extraction -/

section Extracting

variable (fs : FileSystem) (namespaces : List String) (selection : PropertySelection)
  (P : Project) (place : Path) (given : String)

/-- The declarations from which an extraction starts: the props declaration, if there is one. -/
def startsOf (P : Project) (fs : FileSystem) (place : Path) : List DeclarationKey :=
  (propsNode? fs P place).toList.map Node.key

private theorem extract_costs :
    ∃ ending, outcome given ending = properties fs namespaces selection P place given ∧
      Costs P fs (startsOf P fs place) (startsOf P fs place).length
        (extractFreely fs namespaces selection place given) ⟨P, [], []⟩ ending := by
  have hload := load_costs P fs place ⟨P, [], []⟩
  rw [Walking.run_load] at hload
  rw [properties_eq, startsOf, propsNode?, add_eq]
  refine ⟨_, rfl, ?_⟩
  cases hplace : fs.canonical place with
  | error e =>
      rw [hplace] at hload
      exact hload.bind_error
  | ok canonical =>
      rw [hplace] at hload
      dsimp only at hload ⊢
      cases hfile : P.fileAt fs canonical with
      | error e =>
          rw [hfile] at hload
          exact hload.bind_error
      | ok file =>
          rw [hfile] at hload
          refine hload.bind_free ?_
          dsimp only
          cases hprops : propsDeclaration? file with
          | none =>
              rw [walkOf_of_none hprops]
              exact .nothing ((ComesTo.modifying _ _).bind_ok (.pure [] _)) rfl rfl
          | some declaration =>
              have hkept : SameView fs (P.keeping file) P := (extends_keeping hfile).sameView
              obtain rfl := path_of_fileAt hfile
              have hshown : ShownFile P fs file := ⟨FileSystem.settled_of_canonical hplace, hfile⟩
              have hroot := hshown.shown (declaration?_of_propsDeclaration? hprops)
              have hexpand := expand_costs (settingFor namespaces selection file declaration)
                (hroot.congr hkept) (Ready.start fs _)
              rw [walkOf_of_some hprops]
              exact (hexpand.congr hkept).map _

open scoped Classical in
/-- The declarations that can be reached from one. -/
noncomputable def reachable (P : Project) (fs : FileSystem) (root : DeclarationKey) :
    Finset DeclarationKey :=
  {key ∈ (keysInSight P fs).toFinset | Reaches (basesOf P fs) root key}

theorem mem_reachable_iff {P : Project} {fs : FileSystem} {root : Node} (hroot : Shown P fs root)
    {key : DeclarationKey} :
    key ∈ reachable P fs root.key ↔ Reaches (basesOf P fs) root.key key := by
  classical
  rw [reachable, Finset.mem_filter, List.mem_toFinset, and_iff_right_iff_imp]
  intro hreach
  obtain ⟨m, hm, rfl⟩ := hroot.exists_of_reaches hreach
  exact hm.key_mem

/-- **Extraction without a bound on its depth comes to the end to which extraction with a bound
comes.**  On the way it expands no declaration twice and none that cannot be reached, reads no file
twice and none that was read before, and calls itself at most once for each base that a reachable
declaration names, after the first call. -/
theorem propertiesFreely_eq :
    ∃ log, propertiesFreely fs namespaces selection P place given =
        some (properties fs namespaces selection P place given, log) ∧
      (Action.expansions log).Nodup ∧
      (Action.readings log).Nodup ∧
      (Action.readings log).Disjoint (P.files.map ParsedFile.path) ∧
      match propsNode? fs P place with
      | some root =>
        (Action.expansions log).toFinset ⊆ reachable P fs root.key ∧
        (Action.calls log).length ≤
          1 + ∑ key ∈ reachable P fs root.key, basesNamed P fs key
      | none => Action.expansions log = [] ∧ Action.calls log = [] := by
  obtain ⟨ending, hproperties, log, hends, hspends⟩ :=
    extract_costs fs namespaces selection P place given
  refine ⟨log, ?_, hspends.expansions_nodup, hspends.readings_nodup, ?_, ?_⟩
  · rw [propertiesFreely, hends, ← hproperties]
    rfl
  · intro path hpath hheld
    obtain ⟨file, hfile, rfl⟩ := List.mem_map.mp hheld
    have hnone := List.find?_eq_none.mp (hspends.readings_new _ hpath) file hfile
    simp at hnone
  · have hreached := hspends.expansions_reached
    have hcalls := hspends.calls_le
    rw [startsOf] at hreached hcalls
    cases hprops : propsNode? fs P place with
    | none =>
        rw [hprops] at hreached hcalls
        have hnone : Action.expansions log = [] := List.eq_nil_iff_forall_not_mem.mpr
          fun key hkey => by simpa using hreached key hkey
        rw [hnone] at hcalls
        exact ⟨hnone, List.length_eq_zero_iff.mp (Nat.le_zero.mp hcalls)⟩
    | some root =>
        rw [hprops] at hreached hcalls
        obtain ⟨_, _, _, _, hroot⟩ := shown_of_propsNode? hprops
        have hsubset : (Action.expansions log).toFinset ⊆ reachable P fs root.key := by
          intro key hkey
          rw [List.mem_toFinset] at hkey
          rw [mem_reachable_iff hroot]
          simpa using hreached key hkey
        refine ⟨hsubset, hcalls.trans ?_⟩
        rw [← List.sum_toFinset _ hspends.expansions_nodup]
        exact Nat.add_le_add_left (Finset.sum_le_sum_of_subset hsubset) _

end Extracting

end ComponentDocs.Extraction
