import ComponentDocs.Proofs.Documenter.Fingerprints
import ComponentDocs.Proofs.Documenter.Retention

/-!
# What an invalidation drops

An invalidation looks at the kept records one after the other.  If it can look at all of them, it
drops those whose components have changed, lists their paths in order, and leaves no file in the
project that was read for one of these paths or from other bytes than there are now.  After that
nothing is outdated, so a second invalidation finds nothing to do.

It can look at a record unless the name of a file is too long (`Checkable`).  At the first record
where it cannot, it fails: the changed ones before are gone and listed nowhere, and the project is
as it was.
-/

namespace ComponentDocs

open Project

namespace RecordStore

variable {φ : Type} {store : RecordStore φ} {entry : StoredRecord φ}

/-- Without some of the first records, the others of them and all later ones stay. -/
theorem entries_eraseAll {before after : List (StoredRecord φ)} (hnodup : store.keys.Nodup)
    (hentries : store.entries = before ++ after) (p : StoredRecord φ → Prop) [DecidablePred p] :
    (store.eraseAll ((before.filter p).map StoredRecord.key)).entries =
      before.filter (¬ p ·) ++ after := by
  have hgone : ∀ entry ∈ store.entries,
      entry.key ∈ (before.filter p).map StoredRecord.key ↔ entry ∈ before ∧ p entry := by
    intro entry hentry
    constructor
    · intro hmem
      obtain ⟨other, hother, hkey⟩ := List.mem_map.mp hmem
      obtain ⟨hbefore, hp⟩ := List.mem_filter.mp hother
      have hmem : other ∈ store.entries := hentries ▸ List.mem_append_left _ hbefore
      obtain rfl := eq_of_key_eq hnodup hmem hentry hkey
      exact ⟨hbefore, by simpa using hp⟩
    · rintro ⟨hbefore, hp⟩
      exact List.mem_map_of_mem (List.mem_filter.mpr ⟨hbefore, by simpa using hp⟩)
  have hapart : List.Disjoint before after :=
    List.disjoint_of_nodup_append (hentries ▸ List.Nodup.of_map _ hnodup)
  rw [hentries] at hgone
  show store.entries.filter _ = _
  rw [hentries, List.filter_append]
  congr 1
  · refine List.filter_congr fun entry hentry => decide_eq_decide.mpr ?_
    rw [hgone entry (List.mem_append_left _ hentry)]
    simp [hentry]
  · refine List.filter_eq_self.mpr fun entry hentry => ?_
    have hnot : entry ∉ before := fun hbefore => hapart hbefore hentry
    simpa [hnot] using mt (hgone entry (List.mem_append_right _ hentry)).mp (by simp [hnot])

/-- Whether each record is kept under the text of a canonical path, and no two under the same. -/
structure Keyed (store : RecordStore φ) : Prop where
  nodup : store.keys.Nodup
  canonical : ∀ entry ∈ store.entries, ∃ p : Path, p.Settled ∧ p.WellFormed ∧
    entry.key = p.toString

theorem Keyed.settled (hstore : store.Keyed) (hentry : entry ∈ store.entries) :
    (Path.ofString entry.key).Settled ∧ (Path.ofString entry.key).toString = entry.key := by
  obtain ⟨p, hsettled, hwellFormed, hkey⟩ := hstore.canonical entry hentry
  rw [hkey, Path.ofString_toString hwellFormed]
  exact ⟨hsettled, rfl⟩

theorem Keyed.filter (hstore : store.Keyed) (p : StoredRecord φ → Bool) :
    (RecordStore.mk (store.entries.filter p)).Keyed where
  nodup := hstore.nodup.sublist (List.filter_sublist.map _)
  canonical entry hentry := hstore.canonical entry (List.mem_of_mem_filter hentry)

end RecordStore

namespace Documenter

variable {setup : DocumenterSetup} {fs : FileSystem} {d : Documenter} {state : DocumenterState}
  {path : Path}

/-! ## Different keys -/

theorem nodup_keys_recordAt (hpath : path.Settled) (hstate : state.store.keys.Nodup) :
    (recordAt setup fs path state).2.store.keys.Nodup := by
  cases hkept : state.store.get? path.toString with
  | some record =>
      rw [recordAt_of_get? hkept]
      exact hstate
  | none =>
      obtain ⟨read, -, hstore, hrecord⟩ := recordAt_of_get?_eq_none hpath hkept
      rw [hrecord]
      cases recordFrom setup fs path (propertiesAt setup fs path state.project) with
      | error e => exact hstore ▸ hstate
      | ok made =>
          dsimp only
          rw [hstore]
          exact RecordStore.nodup_keys_insert hstate

/-- No operation keeps two records under one key. -/
theorem nodup_keys_perform (hd : d.state.store.keys.Nodup) (operation : Operation) :
    (d.perform fs operation).state.store.keys.Nodup := by
  cases operation with
  | document path =>
      rw [perform, document_eq]
      cases hplace : fs.canonical (Path.ofString path) with
      | error e => exact hd
      | ok place => exact nodup_keys_recordAt (FileSystem.settled_of_canonical hplace) hd
  | documentBelow directory =>
      rw [perform]
      cases hdone : d.documentBelow fs (directory.map Path.ofString) with
      | error e => exact hd
      | ok result =>
          obtain ⟨listed, paths, -, hpaths, -, hafter⟩ := exists_of_documentBelow hdone
          dsimp only
          rw [hafter]
          exact recordsAt_preserves (motive := fun state => state.store.keys.Nodup)
            (fun p hp state hstate => nodup_keys_recordAt (settled_of_map_canonical hpaths p hp)
              hstate) hd
  | isStale path => exact hd
  | invalidate =>
      obtain ⟨gone, -, -, hstore, -⟩ := exists_of_invalidate d fs
      rw [perform, hstore]
      exact hd.sublist (List.filter_sublist.map _)
  | clear => exact List.nodup_nil
  | dispose => exact List.nodup_nil

end Documenter

open Documenter

theorem Session.nodup_keys_run {s : Session} (hs : s.documenter.state.store.keys.Nodup)
    (history : List Event) : (s.run history).documenter.state.store.keys.Nodup := by
  induction history generalizing s with
  | nil => exact hs
  | cons event rest ih =>
      cases event with
      | change disk => exact ih hs
      | call operation => exact ih (nodup_keys_perform hs operation)

theorem Configuration.keyed (c : Configuration) (disk : Disk) (history : List Event) :
    (c.session disk history).documenter.state.store.Keyed :=
  ⟨Session.nodup_keys_run (s := ⟨c.documenter, disk⟩) List.nodup_nil history, c.keys_canonical disk history⟩

namespace Documenter

variable {setup : DocumenterSetup} {fs : FileSystem} {d : Documenter}
  {entry : StoredRecord Fingerprint}

/-! ## Changed components -/

/-- Whether it can be told if a component has changed: its file can be looked for, and if there is
one, so can the override files. -/
def Checkable (setup : DocumenterSetup) (fs : FileSystem) (path : Path) : Prop :=
  ∃ answer, fs.exists? path = .ok answer ∧
    (answer = true → ∀ format ∈ setup.formats, ∃ found, format.path? fs path = .ok found)

/-- Whether the component of a record has changed: its file is gone, or it has another fingerprint
now. -/
def HasChanged (setup : DocumenterSetup) (fs : FileSystem) (entry : StoredRecord Fingerprint) :
    Prop :=
  fs.exists? (.ofString entry.key) = .ok false ∨
    ∃ print ∈ (fingerprint setup fs (.ofString entry.key)).toOption, print ≠ entry.fingerprint

instance (setup : DocumenterSetup) (fs : FileSystem) : DecidablePred (HasChanged setup fs) :=
  fun entry => inferInstanceAs (Decidable (fs.exists? (.ofString entry.key) = .ok false ∨
    ∃ print ∈ (fingerprint setup fs (.ofString entry.key)).toOption, print ≠ entry.fingerprint))

/-- If the component of a record has not changed, its file is there and its fingerprint stays. -/
theorem Checkable.of_not_hasChanged (hcheckable : Checkable setup fs (.ofString entry.key))
    (hsame : ¬ HasChanged setup fs entry) :
    fs.exists? (.ofString entry.key) = .ok true ∧
      fingerprint setup fs (.ofString entry.key) = .ok entry.fingerprint := by
  obtain ⟨answer, hanswer, hfound⟩ := hcheckable
  cases answer with
  | false => exact absurd (.inl hanswer) hsame
  | true =>
      obtain ⟨print, hprint⟩ := exists_fingerprint (hfound rfl)
      refine ⟨hanswer, ?_⟩
      by_contra hother
      refine hsame (.inr ⟨print, by rw [hprint]; rfl, fun h => hother ?_⟩)
      rw [hprint, h]

theorem isOutdated_of_checkable (hnodup : d.state.store.keys.Nodup)
    (hentry : entry ∈ d.state.store.entries)
    (hcheckable : Checkable d.setup fs (.ofString entry.key)) :
    d.isOutdated fs entry.key = .ok (decide (HasChanged d.setup fs entry)) := by
  obtain ⟨answer, hanswer, hfound⟩ := hcheckable
  cases answer with
  | false =>
      have hchanged : HasChanged d.setup fs entry := .inl hanswer
      unfold isOutdated
      dsimp only
      rw [hanswer, decide_eq_true hchanged]
      rfl
  | true =>
      obtain ⟨print, hprint⟩ := exists_fingerprint (hfound rfl)
      have hchanged : HasChanged d.setup fs entry ↔ entry.fingerprint ≠ print := by
        simp [HasChanged, hanswer, hprint, Except.toOption, eq_comm]
      have hsame : (entry.fingerprint != print) = decide (HasChanged d.setup fs entry) := by
        rw [Bool.eq_iff_iff, bne_iff_ne, decide_eq_true_iff, hchanged]
      unfold isOutdated RecordStore.isStale
      dsimp only
      rw [hanswer, RecordStore.find?_of_mem hnodup hentry, hprint]
      exact congrArg Except.ok hsame

theorem exists_fault_of_not_checkable {key : String}
    (hcheckable : ¬ Checkable d.setup fs (.ofString key)) :
    ∃ e, d.isOutdated fs key = .error e := by
  unfold isOutdated
  dsimp only
  cases hanswer : fs.exists? (.ofString key) with
  | error e => exact ⟨_, rfl⟩
  | ok answer =>
      cases answer with
      | false => exact absurd ⟨false, hanswer, nofun⟩ hcheckable
      | true =>
          cases hprint : fingerprint d.setup fs (.ofString key) with
          | error e => exact ⟨e, rfl⟩
          | ok print =>
              exact absurd ⟨true, hanswer, fun _ => exists_path?_of_fingerprint hprint⟩ hcheckable

/-! ## What is left -/

/-- The paths of the records whose components have changed. -/
def changedPaths (d : Documenter) (fs : FileSystem) : List Path :=
  (d.state.store.entries.filter (HasChanged d.setup fs)).map fun entry => .ofString entry.key

/-- The documenter without the records whose components have changed, without the files that were
read for these, and without the files that have other bytes now. -/
def withoutChanged (d : Documenter) (fs : FileSystem) : Documenter :=
  { d with state := { d.state with
    store := ⟨d.state.store.entries.filter (¬ HasChanged d.setup fs ·)⟩
    project := { d.state.project with
      files := d.state.project.files.filter fun file =>
        file.path ∉ d.changedPaths fs ∧ fs.read file.path = .ok file.source } } }

/-- Reading canonical paths anew forgets the files there and those that have changed. -/
theorem refresh_of_settled (project : Project) {paths : List Path}
    (hpaths : ∀ p ∈ paths, p.Settled) :
    Extraction.refresh fs project paths = (none, { project with
      files := project.files.filter fun file =>
        file.path ∉ paths ∧ fs.read file.path = .ok file.source }) := by
  induction paths generalizing project with
  | nil => simp [Extraction.refresh, dropChanged, funext (isCurrent_eq fs)]
  | cons path rest ih =>
      obtain ⟨hpath, hrest⟩ := List.forall_mem_cons.mp hpaths
      have hremove : project.remove fs path = .ok (project.erase path) := by
        rw [remove, FileSystem.canonical_of_settled hpath]
        rfl
      rw [Extraction.refresh, hremove]
      dsimp only
      rw [ih _ hrest, erase, List.filter_filter]
      refine congrArg (fun files => (none, { project with files })) ?_
      refine List.filter_congr fun file _ => ?_
      rw [Bool.eq_iff_iff]
      simp
      tauto

private theorem filter_isOutdated (hnodup : d.state.store.keys.Nodup)
    {entries : List (StoredRecord Fingerprint)} (hentries : entries ⊆ d.state.store.entries)
    (hall : ∀ entry ∈ entries, Checkable d.setup fs (.ofString entry.key)) :
    ((entries.map StoredRecord.key).filter fun key => d.isOutdated fs key = .ok true) =
      (entries.filter (HasChanged d.setup fs)).map StoredRecord.key := by
  rw [List.filter_map]
  refine congrArg _ (List.filter_congr fun entry hentry => ?_)
  rw [Function.comp_apply, isOutdated_of_checkable hnodup (hentries hentry) (hall entry hentry)]
  simp

/-- **An invalidation that can look at all records drops the changed ones**, and lists their
paths. -/
theorem invalidate_of_checkable (hd : d.state.store.Keyed)
    (hall : ∀ entry ∈ d.state.store.entries, Checkable d.setup fs (.ofString entry.key)) :
    d.invalidate fs = (.ok (d.changedPaths fs), d.withoutChanged fs) := by
  have hchecked : ∀ key ∈ d.state.store.keys, ∃ answer, d.isOutdated fs key = .ok answer := by
    intro key hkey
    obtain ⟨entry, hentry, rfl⟩ := List.mem_map.mp hkey
    exact ⟨_, isOutdated_of_checkable hd.nodup hentry (hall entry hentry)⟩
  let gone := (d.state.store.entries.filter (HasChanged d.setup fs)).map StoredRecord.key
  have hdrop : dropOutdated fs d.state.store.keys d =
      (none, d.changedPaths fs, d.without gone) := by
    have hscan := dropOutdated_append [] hd.nodup hchecked
    rw [List.append_nil] at hscan
    rw [hscan, RecordStore.keys, filter_isOutdated hd.nodup (List.Subset.refl _) hall]
    show (none, gone.map Path.ofString ++ [], d.without gone) = _
    rw [List.append_nil, List.map_map]
    rfl
  have hleft : d.state.store.eraseAll gone =
      ⟨d.state.store.entries.filter (¬ HasChanged d.setup fs ·)⟩ := by
    have hentries := RecordStore.entries_eraseAll hd.nodup (List.append_nil _).symm
      (HasChanged d.setup fs)
    rw [List.append_nil] at hentries
    exact congrArg RecordStore.mk hentries
  have hsettled : ∀ p ∈ d.changedPaths fs, p.Settled := by
    intro p hp
    obtain ⟨entry, hentry, rfl⟩ := List.mem_map.mp hp
    exact (hd.settled (List.mem_of_mem_filter hentry)).1
  rw [invalidate, hdrop]
  dsimp only
  rw [refresh_of_settled _ hsettled, without, hleft]
  rfl

/-- **An invalidation fails at the first record that it cannot look at.**  The changed records
before are gone by then; all others stay, and so does the project. -/
theorem invalidate_of_not_checkable {before after : List (StoredRecord Fingerprint)}
    (hd : d.state.store.Keyed) (hentries : d.state.store.entries = before ++ entry :: after)
    (hbefore : ∀ earlier ∈ before, Checkable d.setup fs (.ofString earlier.key))
    (hentry : ¬ Checkable d.setup fs (.ofString entry.key)) :
    ∃ e, d.isOutdated fs entry.key = .error e ∧
      d.invalidate fs = (.error e, { d with state := { d.state with
        store := ⟨before.filter (¬ HasChanged d.setup fs ·) ++ entry :: after⟩ } }) := by
  obtain ⟨e, he⟩ := exists_fault_of_not_checkable hentry
  have hkeys : d.state.store.keys =
      before.map StoredRecord.key ++ entry.key :: after.map StoredRecord.key := by
    rw [RecordStore.keys, hentries, List.map_append, List.map_cons]
  have hsubset : before ⊆ d.state.store.entries := hentries ▸ List.subset_append_left _ _
  have hchecked : ∀ key ∈ before.map StoredRecord.key,
      ∃ answer, d.isOutdated fs key = .ok answer := by
    intro key hkey
    obtain ⟨earlier, hearlier, rfl⟩ := List.mem_map.mp hkey
    exact ⟨_, isOutdated_of_checkable hd.nodup (hsubset hearlier) (hbefore earlier hearlier)⟩
  have hnodup : (before.map StoredRecord.key ++ [entry.key]).Nodup := by
    refine (hkeys ▸ hd.nodup).sublist (List.Sublist.append_left ?_ _)
    exact List.singleton_sublist.mpr List.mem_cons_self
  refine ⟨e, he, ?_⟩
  rw [invalidate_of_error _ hkeys hnodup hchecked he, filter_isOutdated hd.nodup hsubset hbefore,
    without]
  have hleft := RecordStore.entries_eraseAll hd.nodup hentries (HasChanged d.setup fs)
  exact congrArg (fun entries => (Except.error e, { d with state := { d.state with
    store := ⟨entries⟩ } })) hleft

/-! ## Nothing is left to do -/

/-- Where nothing has changed, everything is left. -/
theorem withoutChanged_eq_self
    (hentries : ∀ entry ∈ d.state.store.entries, ¬ HasChanged d.setup fs entry)
    (hfiles : ∀ file ∈ d.state.project.files, fs.read file.path = .ok file.source) :
    d.changedPaths fs = [] ∧ d.withoutChanged fs = d := by
  have hnone : d.changedPaths fs = [] := by
    rw [changedPaths, List.filter_eq_nil_iff.mpr fun entry hentry => by simp [hentries entry hentry],
      List.map_nil]
  have hrecords : d.state.store.entries.filter (¬ HasChanged d.setup fs ·) =
      d.state.store.entries :=
    List.filter_eq_self.mpr fun entry hentry => by simp [hentries entry hentry]
  have hread : (d.state.project.files.filter fun file =>
      file.path ∉ ([] : List Path) ∧ fs.read file.path = .ok file.source) =
      d.state.project.files :=
    List.filter_eq_self.mpr fun file hfile => by simp [hfiles file hfile]
  refine ⟨hnone, ?_⟩
  rw [withoutChanged, hnone, hrecords, hread]

theorem not_hasChanged_of_mem (hentry : entry ∈ (d.withoutChanged fs).state.store.entries) :
    entry ∈ d.state.store.entries ∧ ¬ HasChanged d.setup fs entry := by
  simpa using List.mem_filter.mp hentry

theorem of_mem_files_withoutChanged {file : Source.ParsedFile}
    (hfile : file ∈ (d.withoutChanged fs).state.project.files) :
    file.path ∉ d.changedPaths fs ∧ fs.read file.path = .ok file.source := by
  simpa using (List.mem_filter.mp hfile).2

/-- A record whose component has not changed is not stale. -/
theorem isStale_of_not_hasChanged (hd : d.state.store.Keyed)
    (hentry : entry ∈ d.state.store.entries)
    (hcheckable : Checkable d.setup fs (.ofString entry.key))
    (hsame : ¬ HasChanged d.setup fs entry) :
    d.isStale fs (.ofString entry.key) = .ok false := by
  obtain ⟨-, hprint⟩ := hcheckable.of_not_hasChanged hsame
  obtain ⟨hsettled, hkey⟩ := hd.settled hentry
  have hkept : d.state.store.find? (Path.ofString entry.key).toString = some entry := by
    rw [hkey, RecordStore.find?_of_mem hd.nodup hentry]
  unfold isStale RecordStore.isStale
  simp [FileSystem.canonical_of_settled hsettled, hprint, hkept, bind, Except.bind, pure,
    Except.pure]

end Documenter

/-- **What an invalidation does, whatever has happened before.**  If it can look at all records, it
lists the paths of those whose components have changed, in the order in which they are kept, and
drops these records and no others.  Each component that is left is there and not stale; each file
that is left in the project was read for none of the listed paths and from the bytes that it has now;
and a second invalidation lists nothing and changes nothing.  If there are records that it cannot
look at, it fails at the first one. -/
theorem Configuration.invalidate_exact (c : Configuration) (disk : Disk) (history : List Event) :
    let s := c.session disk history
    let d := s.documenter
    let fs := s.disk.toFileSystem
    let kept := d.state.store.entries
    let after := (d.invalidate fs).2
    ((∀ entry ∈ kept, Checkable c.setup fs (.ofString entry.key)) →
      (∃ listed, (d.invalidate fs).1 = .ok listed ∧
        listed = (kept.filter (HasChanged c.setup fs)).map (fun entry => .ofString entry.key) ∧
        after.state.store.entries = kept.filter (¬ HasChanged c.setup fs ·) ∧
        after.state.project.files = d.state.project.files.filter (fun file =>
          file.path ∉ listed ∧ fs.read file.path = .ok file.source)) ∧
      (∀ entry ∈ after.state.store.entries,
        fs.exists? (.ofString entry.key) = .ok true ∧
          after.isStale fs (.ofString entry.key) = .ok false) ∧
      after.invalidate fs = (.ok [], after)) ∧
    (∀ before entry later, kept = before ++ entry :: later →
      (∀ earlier ∈ before, Checkable c.setup fs (.ofString earlier.key)) →
      ¬ Checkable c.setup fs (.ofString entry.key) →
        ∃ e, d.isOutdated fs entry.key = .error e ∧ (d.invalidate fs).1 = .error e ∧
          after.state.store.entries = before.filter (¬ HasChanged c.setup fs ·) ++ entry :: later ∧
          after.state.project.files = d.state.project.files) := by
  intro s d fs kept after
  have hsetup : d.setup = c.setup := (c.follows_session disk history).setup_eq
  have hd : d.state.store.Keyed := c.keyed disk history
  rw [← hsetup]
  constructor
  · intro hall
    have hafter : d.invalidate fs = (.ok (d.changedPaths fs), d.withoutChanged fs) :=
      invalidate_of_checkable hd hall
    have hleft : after = d.withoutChanged fs := congrArg Prod.snd hafter
    have hkeyed : after.state.store.Keyed := hleft ▸ hd.filter _
    have hchecked : ∀ entry ∈ after.state.store.entries,
        Checkable after.setup fs (.ofString entry.key) ∧ ¬ HasChanged after.setup fs entry := by
      rw [hleft]
      intro entry hentry
      obtain ⟨hkept, hsame⟩ := not_hasChanged_of_mem hentry
      exact ⟨hall entry hkept, hsame⟩
    refine ⟨⟨_, congrArg Prod.fst hafter, rfl, ?_, ?_⟩, fun entry hentry => ?_, ?_⟩
    · rw [hleft]
      rfl
    · rw [hleft]
      rfl
    · obtain ⟨hcheckable, hsame⟩ := hchecked entry hentry
      exact ⟨(hcheckable.of_not_hasChanged hsame).1,
        isStale_of_not_hasChanged hkeyed hentry hcheckable hsame⟩
    · obtain ⟨hnone, hsame⟩ : after.changedPaths fs = [] ∧ after.withoutChanged fs = after := by
        refine withoutChanged_eq_self (fun entry hentry => (hchecked entry hentry).2) ?_
        rw [hleft]
        exact fun file hfile => (of_mem_files_withoutChanged hfile).2
      rw [invalidate_of_checkable hkeyed fun entry hentry => (hchecked entry hentry).1, hnone, hsame]
  · intro before entry later hkept hbefore hentry
    obtain ⟨e, he, hafter⟩ := invalidate_of_not_checkable hd hkept hbefore hentry
    have hleft : after = _ := congrArg Prod.snd hafter
    refine ⟨e, he, congrArg Prod.fst hafter, ?_, ?_⟩ <;> rw [hleft]

/-- Of three components one is rewritten and one deleted.  The two are listed in the order in which
they were documented, and the third one is kept. -/
theorem invalidate_of_rewritten_and_deleted :
    let before := ((Disk.holding "T.ts" "interface TProps\x7ba:A\x7d").write "U.ts"
      (Text.bytesOf "interface UProps\x7ba:A\x7d") 0).write "V.ts"
        (Text.bytesOf "interface VProps\x7ba:A\x7d") 0
    let after := (before.write "T.ts" (Text.bytesOf "interface TProps\x7bb:B\x7d") 0).delete "V.ts"
    let history : List Event := [.call (.document "V.ts"), .call (.document "U.ts"),
      .call (.document "T.ts"), .change after]
    let c := Configuration.plain {}
    let s := c.session before history
    let fs := s.disk.toFileSystem
    let last := (s.documenter.invalidate fs).2
    (∀ entry ∈ s.documenter.state.store.entries, Checkable c.setup fs (.ofString entry.key)) ∧
    (s.documenter.invalidate fs).1 = .ok [⟨.root, ["V.ts"]⟩, ⟨.root, ["T.ts"]⟩] ∧
    last.state.store.keys = ["/U.ts"] ∧ last.invalidate fs = (.ok [], last) := by
  intro before after history c s fs last
  have hfacts : (∀ entry ∈ s.documenter.state.store.entries,
      (fs.exists? (.ofString entry.key) = .ok true ∨ fs.exists? (.ofString entry.key) = .ok false) ∧
      ∀ format ∈ c.setup.formats, format.path? fs (.ofString entry.key) = .ok none) ∧
      (s.documenter.state.store.entries.filter (HasChanged c.setup fs)).map
        (fun entry => Path.ofString entry.key) = [⟨.root, ["V.ts"]⟩, ⟨.root, ["T.ts"]⟩] ∧
      (s.documenter.state.store.entries.filter (¬ HasChanged c.setup fs ·)).map
        StoredRecord.key = ["/U.ts"] := by
    decide +kernel
  obtain ⟨hlooked, hchanged, hkept⟩ := hfacts
  -- from here on nothing may unfold the concrete session
  clear_value before history c
  have hcheckable : ∀ entry ∈ s.documenter.state.store.entries,
      Checkable c.setup fs (.ofString entry.key) := by
    intro entry hentry
    obtain ⟨hthere | hgone, hfound⟩ := hlooked entry hentry
    · exact ⟨true, hthere, fun _ format hformat => ⟨none, hfound format hformat⟩⟩
    · exact ⟨false, hgone, nofun⟩
  obtain ⟨hexact, -⟩ := c.invalidate_exact before history
  obtain ⟨⟨listed, hreply, hlisted, hentries, -⟩, -, hagain⟩ := hexact hcheckable
  refine ⟨hcheckable, ?_, ?_, hagain⟩
  · exact hreply.trans (congrArg Except.ok (hlisted.trans hchanged))
  · exact (congrArg (List.map StoredRecord.key) hentries).trans hkept

/-- Of two records the component of the first one has changed, and the name of the second one has
become too long to look up.  An invalidation drops the first record and lists nothing. -/
theorem invalidate_without_list :
    let s := overlongSession
    let fs := s.disk.toFileSystem
    s.documenter.state.store.keys = ["/T.ts", overlong.toString] ∧
    (∃ entry ∈ s.documenter.state.store.entries, entry.key = "/T.ts" ∧
      HasChanged (Configuration.plain {}).setup fs entry) ∧
    (s.documenter.invalidate fs).1.toOption = none ∧
    (s.documenter.invalidate fs).2.state.store.keys = [overlong.toString] := by
  intro s fs
  have hsession : s = overlongSession := rfl
  have hdisk : fs = curatedDisk.toFileSystem := rfl
  have hfacts : (∃ entry ∈ overlongSession.documenter.state.store.entries, entry.key = "/T.ts" ∧
      HasChanged (Configuration.plain {}).setup curatedDisk.toFileSystem entry) ∧
      (overlongSession.documenter.without ["/T.ts"]).state.store.keys = [overlong.toString] := by
    rw [documenter_overlongSession]
    decide +kernel
  obtain ⟨hchanged, hleft⟩ := hfacts
  clear_value fs s
  rw [hsession, hdisk]
  refine ⟨keys_overlongSession.1, hchanged, ?_, ?_⟩
  · rw [invalidate_overlongSession]
    rfl
  · rw [invalidate_overlongSession]
    exact hleft

end ComponentDocs
