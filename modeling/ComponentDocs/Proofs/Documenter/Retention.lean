import ComponentDocs.Proofs.Documenter.RecordInvariant

/-!
# How long a record is kept

Once a documenter has replied with a record, it replies with the same one whenever the component is
asked for again, under any spelling of its path and whatever has become of its files, until the
record is given up.  Clearing and disposing give up every record, and an invalidation gives up those
that it drops.

An invalidation that comes to an end lists just what it drops (`dropped_eq_of_invalidate`).  But it
looks at one record after the other, and drops each outdated one on the spot; if it then fails at a
later one, which it does if the name of that one has become too long to look up, what it has dropped
is listed nowhere (`record_dropped_unlisted`).
-/

namespace ComponentDocs

open Project

/-! ## Stores -/

namespace RecordStore

variable {φ : Type} {store : RecordStore φ} {key : String}

/-- The store without the records under several keys. -/
def eraseAll (store : RecordStore φ) (keys : List String) : RecordStore φ :=
  ⟨store.entries.filter (·.key ∉ keys)⟩

@[simp] theorem eraseAll_nil (store : RecordStore φ) : store.eraseAll [] = store := by
  simp [eraseAll]

theorem eraseAll_eraseAll (store : RecordStore φ) (keys more : List String) :
    (store.eraseAll keys).eraseAll more = store.eraseAll (keys ++ more) := by
  simp only [eraseAll, List.filter_filter, RecordStore.mk.injEq]
  refine List.filter_congr fun entry _ => ?_
  simp [Bool.and_comm]

theorem eraseAll_singleton (store : RecordStore φ) (key : String) :
    store.eraseAll [key] = store.erase key := by
  simp [eraseAll, erase]

theorem find?_eraseAll {keys : List String} (hkey : key ∉ keys) :
    (store.eraseAll keys).find? key = store.find? key := by
  unfold find? eraseAll
  rw [List.find?_filter]
  congr 1
  funext entry
  by_cases hentry : entry.key = key <;> simp [hentry, hkey]

theorem get?_eraseAll {keys : List String} (hkey : key ∉ keys) :
    (store.eraseAll keys).get? key = store.get? key :=
  congrArg (Option.map StoredRecord.record) (find?_eraseAll hkey)

end RecordStore

namespace Documenter

variable {d : Documenter} {fs : FileSystem} {place : Path}

/-! ## What an invalidation drops -/

/-- The documenter without the records under several keys. -/
def without (d : Documenter) (keys : List String) : Documenter :=
  { d with state := { d.state with store := d.state.store.eraseAll keys } }

@[simp] theorem without_nil (d : Documenter) : d.without [] = d := by
  rw [without, RecordStore.eraseAll_nil]

theorem without_without (d : Documenter) (keys more : List String) :
    (d.without keys).without more = d.without (keys ++ more) := by
  simp [without, RecordStore.eraseAll_eraseAll]

/-- The paths of the records that an invalidation drops, whether or not it gets to list them. -/
def dropped (d : Documenter) (fs : FileSystem) : List Path :=
  (dropOutdated fs d.state.store.keys d).2.1

private theorem dropOutdated_cons (fs : FileSystem) (key : String) (rest : List String)
    (d : Documenter) :
    dropOutdated fs (key :: rest) d =
      match d.isOutdated fs key with
      | .error e => (some e, [], d)
      | .ok false => dropOutdated fs rest d
      | .ok true =>
        let last := dropOutdated fs rest (d.without [key])
        (last.1, Path.ofString key :: last.2.1, last.2.2) := by
  rw [without, RecordStore.eraseAll_singleton]
  rfl

/-- Dropping outdated records erases some of the keys, in order, and leaves the rest of the
documenter alone. -/
private theorem exists_of_dropOutdated (fs : FileSystem) (keys : List String) (d : Documenter) :
    ∃ gone : List String, gone.Sublist keys ∧
      (dropOutdated fs keys d).2.1 = gone.map Path.ofString ∧
      (dropOutdated fs keys d).2.2 = d.without gone := by
  induction keys generalizing d with
  | nil => exact ⟨[], .slnil, rfl, d.without_nil.symm⟩
  | cons key rest ih =>
      rw [dropOutdated_cons]
      cases d.isOutdated fs key with
      | error e => exact ⟨[], List.nil_sublist _, rfl, d.without_nil.symm⟩
      | ok answer =>
          cases answer with
          | false =>
              obtain ⟨gone, hgone, hlisted, hafter⟩ := ih d
              exact ⟨gone, hgone.cons key, hlisted, hafter⟩
          | true =>
              obtain ⟨gone, hgone, hlisted, hafter⟩ := ih (d.without [key])
              rw [without_without] at hafter
              exact ⟨key :: gone, hgone.cons_cons key, congrArg _ hlisted, hafter⟩

theorem exists_of_invalidate (d : Documenter) (fs : FileSystem) :
    ∃ gone : List String, gone.Sublist d.state.store.keys ∧ d.dropped fs = gone.map Path.ofString ∧
      (d.invalidate fs).2.state.store = d.state.store.eraseAll gone ∧
      ∀ listed, (d.invalidate fs).1 = .ok listed → listed = d.dropped fs := by
  obtain ⟨gone, hgone, hlisted, hafter⟩ := exists_of_dropOutdated fs d.state.store.keys d
  refine ⟨gone, hgone, hlisted, ?_⟩
  unfold invalidate dropped
  generalize dropOutdated fs d.state.store.keys d = result at hafter ⊢
  obtain ⟨fault, listed, after⟩ := result
  have hstore : after.state.store = d.state.store.eraseAll gone :=
    congrArg (fun d => d.state.store) hafter
  cases fault with
  | some e => exact ⟨hstore, by simp⟩
  | none =>
      -- reading the files again touches the project only
      dsimp only
      generalize Extraction.refresh fs after.state.project listed = refreshed
      obtain ⟨_ | e, project⟩ := refreshed
      · exact ⟨hstore, fun other hother => (Except.ok.inj hother).symm⟩
      · exact ⟨hstore, by simp⟩

/-- An invalidation that comes to an end lists what it drops. -/
theorem dropped_eq_of_invalidate {listed : List Path} (hlisted : (d.invalidate fs).1 = .ok listed) :
    d.dropped fs = listed := by
  obtain ⟨gone, -, -, -, hreport⟩ := exists_of_invalidate d fs
  exact (hreport listed hlisted).symm

/-- What is not dropped is kept as it is. -/
theorem get?_invalidate (hplace : place.WellFormed) (hnotDropped : place ∉ d.dropped fs) :
    (d.invalidate fs).2.state.store.get? place.toString =
      d.state.store.get? place.toString := by
  obtain ⟨gone, -, hdropped, hstore, -⟩ := exists_of_invalidate d fs
  rw [hstore]
  refine RecordStore.get?_eraseAll fun hgone => hnotDropped ?_
  rw [hdropped, ← Path.ofString_toString hplace]
  exact List.mem_map_of_mem hgone

/-- Whether a record is outdated does not depend on the others. -/
theorem isOutdated_without {keys : List String} {key : String} (hkey : key ∉ keys) :
    (d.without keys).isOutdated fs key = d.isOutdated fs key := by
  unfold isOutdated RecordStore.isStale
  rw [without, RecordStore.find?_eraseAll hkey]

theorem isOutdated_of_error (hplace : place.WellFormed) {e : FileError}
    (hlookup : fs.exists? place = .error e) :
    d.isOutdated fs place.toString = .error (.file e) := by
  unfold isOutdated
  rw [Path.ofString_toString hplace]
  dsimp only
  rw [hlookup]
  rfl

/-- As long as records can be looked at, the outdated ones are dropped. -/
theorem dropOutdated_append {before : List String} (rest : List String) (hnodup : before.Nodup)
    (hbefore : ∀ k ∈ before, ∃ answer, d.isOutdated fs k = .ok answer) :
    let gone := before.filter fun k => d.isOutdated fs k = .ok true
    let last := dropOutdated fs rest (d.without gone)
    dropOutdated fs (before ++ rest) d =
      (last.1, gone.map Path.ofString ++ last.2.1, last.2.2) := by
  induction before generalizing d with
  | nil => simp
  | cons k more ih =>
      obtain ⟨⟨answer, hanswer⟩, hmore⟩ := List.forall_mem_cons.mp hbefore
      rw [List.nodup_cons] at hnodup
      rw [List.cons_append, dropOutdated_cons, hanswer]
      cases answer with
      | false => simp [ih hnodup.2 hmore, hanswer]
      | true =>
          -- the rest is looked at without the first record, which makes no difference there
          have hother : ∀ other ∈ more,
              (d.without [k]).isOutdated fs other = d.isOutdated fs other := fun other hmem =>
            isOutdated_without (by simpa using fun h : other = k => hnodup.1 (h ▸ hmem))
          have hmore' : ∀ other ∈ more, ∃ answer,
              (d.without [k]).isOutdated fs other = .ok answer := fun other hmem => by
            rw [hother other hmem]
            exact hmore other hmem
          have hsame : (more.filter fun k' => (d.without [k]).isOutdated fs k' = .ok true) =
              more.filter fun k' => d.isOutdated fs k' = .ok true :=
            List.filter_congr fun other hmem => by rw [hother other hmem]
          have hdropped := ih hnodup.2 hmore'
          dsimp only at hdropped
          rw [hsame, without_without] at hdropped
          simp [hdropped, hanswer]

/-- **An invalidation fails at the first record that it cannot look at**, and by then it has dropped
the outdated ones before. -/
theorem invalidate_of_error (before : List String) {after : List String} {key : String} {e : Fault}
    (hkeys : d.state.store.keys = before ++ key :: after) (hnodup : (before ++ [key]).Nodup)
    (hbefore : ∀ k ∈ before, ∃ answer, d.isOutdated fs k = .ok answer)
    (hkey : d.isOutdated fs key = .error e) :
    d.invalidate fs =
      (.error e, d.without (before.filter fun k => d.isOutdated fs k = .ok true)) := by
  obtain ⟨hnew, hnodup⟩ : key ∉ before ∧ before.Nodup := by
    simpa using List.nodup_append_comm.mp hnodup
  have hfault : (d.without (before.filter fun k => d.isOutdated fs k = .ok true)).isOutdated fs
      key = .error e := by
    rw [isOutdated_without fun h => hnew (List.mem_of_mem_filter h), hkey]
  rw [invalidate, hkeys, dropOutdated_append _ hnodup hbefore, dropOutdated_cons, hfault]

/-! ## What gives up a record -/

/-- Whether an operation gives up the record of the component at a path: it clears or disposes of
all, or it is an invalidation that lists the path, or one that fails after dropping its record. -/
def GivesUp (d : Documenter) (fs : FileSystem) (place : Path) : Operation → Prop
  | .clear | .dispose => True
  | .invalidate =>
    match (d.invalidate fs).1 with
    | .ok listed => place ∈ listed
    | .error _ => place ∈ d.dropped fs
  | .document _ | .documentBelow _ | .isStale _ => False

theorem not_mem_dropped_of_not_givesUp (hkeeps : ¬ d.GivesUp fs place .invalidate) :
    place ∉ d.dropped fs := by
  intro hdropped
  apply hkeeps
  unfold GivesUp
  cases hlisted : (d.invalidate fs).1 with
  | error e => exact hdropped
  | ok listed => exact dropped_eq_of_invalidate hlisted ▸ hdropped

/-- **An operation that does not give up a record keeps it.** -/
theorem get?_perform {record : ComponentRecord} (hplace : place.WellFormed)
    (hkept : d.state.store.get? place.toString = some record) {operation : Operation}
    (hkeeps : ¬ d.GivesUp fs place operation) :
    (d.perform fs operation).state.store.get? place.toString = some record := by
  cases operation with
  | document path =>
      rw [perform, document_eq]
      cases hcanonical : fs.canonical (Path.ofString path) with
      | error e => exact hkept
      | ok other => exact get?_recordAt (FileSystem.settled_of_canonical hcanonical) hkept
  | documentBelow directory =>
      rw [perform]
      cases hdone : d.documentBelow fs (directory.map Path.ofString) with
      | error e => exact hkept
      | ok result =>
          obtain ⟨listed, paths, -, hpaths, -, hafter⟩ := exists_of_documentBelow hdone
          dsimp only
          rw [hafter]
          refine recordsAt_preserves
            (motive := fun state => state.store.get? place.toString = some record)
            (fun p hp state hstate => ?_) hkept
          exact get?_recordAt (settled_of_map_canonical hpaths p hp) hstate
  | isStale path => exact hkept
  | invalidate =>
      rw [perform, get?_invalidate hplace (not_mem_dropped_of_not_givesUp hkeeps)]
      exact hkept
  | clear => exact absurd trivial hkeeps
  | dispose => exact absurd trivial hkeeps

end Documenter

open Documenter

/-- Whether no event of a history gives up the record of the component at a path. -/
def Session.Keeps (place : Path) : Session → List Event → Prop
  | _, [] => True
  | s, .change disk :: rest => (s.next (.change disk)).Keeps place rest
  | s, .call operation :: rest =>
    ¬ s.documenter.GivesUp s.disk.toFileSystem place operation ∧
      (s.next (.call operation)).Keeps place rest

theorem Session.get?_run {s : Session} {place : Path} (hplace : place.WellFormed)
    {record : ComponentRecord}
    (hkept : s.documenter.state.store.get? place.toString = some record) {history : List Event}
    (hkeeps : s.Keeps place history) :
    (s.run history).documenter.state.store.get? place.toString = some record := by
  induction history generalizing s with
  | nil => exact hkept
  | cons event rest ih =>
      cases event with
      | change disk => exact ih hkept hkeeps
      | call operation => exact ih (get?_perform hplace hkept hkeeps.1) hkeeps.2

/-! ## Keys -/

/-- Whatever happens, each record is kept under the text of a canonical path. -/
theorem Configuration.keys_canonical (c : Configuration) (disk : Disk) (history : List Event) :
    ∀ entry ∈ (c.session disk history).documenter.state.store.entries,
      ∃ p : Path, p.Settled ∧ p.WellFormed ∧ entry.key = p.toString := by
  refine Session.run_preserves
    (motive := fun state => ∀ entry ∈ state.store.entries,
      ∃ p : Path, p.Settled ∧ p.WellFormed ∧ entry.key = p.toString)
    (fun fs path hsettled hwellFormed state hstate entry hentry => ?_)
    (fun d after hforgets hd entry hentry => hd entry (hforgets.entries hentry))
    (s := ⟨c.documenter, disk⟩) ⟨rfl, rfl, rfl⟩
    (fun _ hentry => absurd hentry List.not_mem_nil) history
  rcases (recordAt_asked hsettled).entries entry hentry with hkept | ⟨hkey, -⟩
  · exact hstate entry hkept
  · exact ⟨path, hsettled, hwellFormed, hkey⟩

theorem Configuration.keys_wellFormed (c : Configuration) (disk : Disk) (history : List Event) :
    ∀ entry ∈ (c.session disk history).documenter.state.store.entries,
      ∃ p : Path, p.WellFormed ∧ entry.key = p.toString := by
  intro entry hentry
  obtain ⟨p, -, hp⟩ := c.keys_canonical disk history entry hentry
  exact ⟨p, hp⟩

/-- An invalidation that comes to an end takes out the records that it lists; the others keep their
order. -/
theorem entries_of_invalidate {d : Documenter} {fs : FileSystem} {listed : List Path}
    (hkeys : ∀ entry ∈ d.state.store.entries, ∃ p : Path, p.WellFormed ∧ entry.key = p.toString)
    (hlisted : (d.invalidate fs).1 = .ok listed) :
    (d.invalidate fs).2.state.store.entries =
      d.state.store.entries.filter fun entry => Path.ofString entry.key ∉ listed := by
  obtain ⟨gone, hgone, hdropped, hstore, hreport⟩ := exists_of_invalidate d fs
  rw [hreport listed hlisted, hdropped, hstore]
  refine List.filter_congr fun entry hentry => decide_eq_decide.mpr (not_congr ?_)
  constructor
  · exact fun hmem => List.mem_map_of_mem hmem
  · intro hmem
    obtain ⟨key, hkey, hsame⟩ := List.mem_map.mp hmem
    -- texts of well-formed paths are told apart by the paths
    obtain ⟨other, hother, rfl⟩ := List.mem_map.mp (hgone.subset hkey)
    obtain ⟨p, hp, hpkey⟩ := hkeys entry hentry
    obtain ⟨q, hq, hqkey⟩ := hkeys other hother
    rw [hpkey, hqkey, Path.ofString_toString hp, Path.ofString_toString hq] at hsame
    rw [hpkey, ← hsame, ← hqkey]
    exact hkey

/-! ## Replies -/

/-- The description in a reply. -/
def Documenter.replyDescription (reply : Except Fault (Option ComponentRecord × Documenter)) :
    Option String :=
  (reply.toOption.bind Prod.fst).map ComponentRecord.description

/-- **A documenter replies with the same record until it is given up.**  Between the first reply and
a later one anything may happen to the files and any operation may be called, as long as none gives
up the record.  Under each spelling of its path the component then gets the record again, and the
documenter stays as it is; so it is when a directory is documented, whatever other components come
before.  An invalidation that comes to an end leaves all records alone that it does not list, and in
their order. -/
theorem document_eq_of_keeps (c : Configuration) (disk : Disk) (before between : List Event)
    (path : String) (place : Path) (record : ComponentRecord)
    (hplace : (c.session disk before).disk.canonical (Path.ofString path) = .ok place)
    (hreply : ((c.session disk before).documenter.document
      (c.session disk before).disk.toFileSystem (Path.ofString path)).map Prod.fst =
        .ok (some record))
    (hkeeps : ((c.session disk before).next (.call (.document path))).Keeps place between) :
    let s := c.session disk (before ++ .call (.document path) :: between)
    let fs := s.disk.toFileSystem
    (∀ other, s.disk.canonical (Path.ofString other) = .ok place →
      s.documenter.document fs (Path.ofString other) = .ok (some record, s.documenter)) ∧
    (∀ directory records after,
      s.documenter.documentBelow fs (directory.map Path.ofString) = .ok (records, after) →
      place ∈ s.documenter.requested fs (.documentBelow directory) → record ∈ records) ∧
    (∀ earlier : List Path, (∀ p ∈ earlier, p.Settled) →
      let state := (recordsAt c.setup fs earlier s.documenter.state).2
      recordAt c.setup fs place state = (some record, state)) ∧
    (∀ listed, (s.documenter.invalidate fs).1 = .ok listed →
      (s.documenter.invalidate fs).2.state.store.entries =
        s.documenter.state.store.entries.filter fun entry => Path.ofString entry.key ∉ listed) := by
  intro s fs
  have hsettled : place.Settled := FileSystem.settled_of_canonical hplace
  have hwellFormed : place.WellFormed :=
    Disk.wellFormed_canonical (Path.wellFormed_ofString path) hplace
  have hfirst : ((c.session disk before).next (.call (.document path))).documenter.state.store.get?
      place.toString = some record := by
    rw [document_eq, hplace, Except.map, Except.map, Except.ok.injEq] at hreply
    rw [Session.next, perform, document_eq, hplace]
    exact get?_of_recordAt hsettled hreply
  have hkept : s.documenter.state.store.get? place.toString = some record := by
    have hrun : s = ((c.session disk before).next (.call (.document path))).run between := by
      simp only [s, Configuration.session]
      rw [Session.run_append]
      rfl
    rw [hrun]
    exact Session.get?_run hwellFormed hfirst hkeeps
  have hinner (earlier : List Path) (hearlier : ∀ p ∈ earlier, p.Settled) :
      recordAt c.setup fs place (recordsAt c.setup fs earlier s.documenter.state).2 =
        (some record, (recordsAt c.setup fs earlier s.documenter.state).2) := by
    refine recordAt_of_get? ?_
    exact recordsAt_preserves (motive := fun state => state.store.get? place.toString = some record)
      (fun p hp state hstate => get?_recordAt (hearlier p hp) hstate) hkept
  refine ⟨?_, ?_, hinner, fun listed => entries_of_invalidate (c.keys_wellFormed disk _)⟩
  · intro other hother
    rw [document_eq]
    have hother' : fs.canonical (Path.ofString other) = .ok place := hother
    rw [hother', Except.map, recordAt_of_get? hkept]
  · intro directory records after hdone hrequested
    obtain ⟨listed, paths, hlisted, hpaths, hrecords, -⟩ := exists_of_documentBelow hdone
    have hasked : place ∈ paths := by
      rw [requested, hlisted] at hrequested
      obtain ⟨given, hgiven, hcanonical⟩ := List.mem_filterMap.mp hrequested
      refine mem_of_map_eq_map_ok hpaths hgiven ?_
      cases hresult : fs.canonical given with
      | error e => simp [hresult, Except.toOption] at hcanonical
      | ok other =>
          rw [hresult] at hcanonical
          exact congrArg Except.ok (Option.some.inj hcanonical)
    rw [hrecords, List.mem_mergeSort]
    exact mem_recordsAt (settled_of_map_canonical hpaths) hasked hkept

/-- Nothing has changed at first, and then the files are deleted. -/
def invalidatedThenDeleted : List Event :=
  [.call .invalidate, .change .blank, .call (.isStale "T.ts"), .call (.document "./T.ts"),
    .call (.documentBelow none)]

/-- A component without files still gets the record that was made of them. -/
theorem document_eq_of_invalidatedThenDeleted :
    let c := Configuration.plain {}
    let before : List Event := [.change (.holding "T.ts" "interface TProps\x7ba:A\x7d")]
    let first := c.session .blank before
    let s := c.session .blank (before ++ .call (.document "T.ts") :: invalidatedThenDeleted)
    (first.next (.call (.document "T.ts"))).Keeps ⟨.root, ["T.ts"]⟩ invalidatedThenDeleted ∧
    ∃ record, record.description = "T component" ∧
      (first.documenter.document first.disk.toFileSystem (Path.ofString "T.ts")).map Prod.fst =
        .ok (some record) ∧
      s.documenter.document s.disk.toFileSystem (Path.ofString "d/../T.ts") =
        .ok (some record, s.documenter) := by
  intro c before first s
  have hfacts : ((first.next (.call (.document "T.ts"))).documenter.invalidate
        first.disk.toFileSystem).1 = .ok [] ∧
      replyDescription (first.documenter.document first.disk.toFileSystem
        (Path.ofString "T.ts")) = some "T component" := by
    decide +kernel
  obtain ⟨hlisted, hreply⟩ := hfacts
  have hkeeps : (first.next (.call (.document "T.ts"))).Keeps ⟨.root, ["T.ts"]⟩
      invalidatedThenDeleted := by
    refine ⟨?_, id, id, id, trivial⟩
    rw [GivesUp, Session.disk_next_call, hlisted]
    exact List.not_mem_nil
  obtain ⟨record, hrecord, hdescription⟩ := Option.map_eq_some_iff.mp hreply
  have hfirst : (first.documenter.document first.disk.toFileSystem (Path.ofString "T.ts")).map
      Prod.fst = .ok (some record) := by
    cases hdone : first.documenter.document first.disk.toFileSystem (Path.ofString "T.ts") with
    | error e => simp [hdone, Except.toOption] at hrecord
    | ok result =>
        rw [hdone] at hrecord
        exact congrArg Except.ok hrecord
  have hkept := document_eq_of_keeps c .blank before invalidatedThenDeleted "T.ts"
    ⟨.root, ["T.ts"]⟩ record rfl hfirst hkeeps
  exact ⟨hkeeps, record, hdescription, hfirst, hkept.1 "d/../T.ts" rfl⟩

/-! ## An invalidation that fails -/

/-- The path of a component below a directory whose name is too long. -/
def overlong : Path := ⟨.root, ["d", String.ofList (List.replicate 256 'x'), "U.ts"]⟩

theorem settled_overlong : overlong.Settled := ⟨rfl, by decide +kernel⟩

theorem wellFormed_overlong : overlong.WellFormed := by
  have hlong : Path.isSegment (String.ofList (List.replicate 256 'x')) := by
    rw [Path.isSegment, String.toList_ofList]
    decide +kernel
  intro s hs
  simp only [overlong, List.mem_cons, List.not_mem_nil, or_false] at hs
  rcases hs with rfl | rfl | rfl
  · decide +kernel
  · exact hlong
  · decide +kernel

/-- A component with an override file, next to a directory. -/
def curatedDisk : Disk :=
  ((Disk.holding "T.ts" "interface TProps\x7ba:A\x7d").write "T.docs.py"
    (Text.bytesOf "DOCS=\x7b\"description\":\"d\"\x7d") 0).write "d/y" [] 0

/-- One record is made of a component, and one of a component that is missing together with its
directory.  Then the first component gets an override file, and there is the directory. -/
def overlongSession : Session :=
  ((((Configuration.plain {}).session .blank
    [.change (.holding "T.ts" "interface TProps\x7ba:A\x7d")]).next (.call (.document "T.ts"))).next
      (.call (.document overlong.toString))).next (.change curatedDisk)

/-- The long name is read back from its text by a lemma here, since evaluation would take its
time. -/
theorem documenter_overlongSession :
    let first := (Configuration.plain {}).session .blank
      [.change (.holding "T.ts" "interface TProps\x7ba:A\x7d")]
    let d := (first.next (.call (.document "T.ts"))).documenter
    overlongSession.documenter =
      { d with state := (recordAt d.setup first.disk.toFileSystem overlong d.state).2 } := by
  intro first d
  rw [overlongSession, Session.documenter_next_change, Session.documenter_next_call,
    Session.disk_next_call, perform_document settled_overlong wellFormed_overlong]

theorem keys_overlongSession :
    overlongSession.documenter.state.store.keys = ["/T.ts", overlong.toString] ∧
    overlongSession.documenter.isOutdated curatedDisk.toFileSystem "/T.ts" = .ok true := by
  rw [documenter_overlongSession]
  decide +kernel

/-- An invalidation drops the first record and then fails at the other one. -/
theorem invalidate_overlongSession :
    overlongSession.documenter.invalidate curatedDisk.toFileSystem =
      (.error (.file ⟨.nameTooLong, overlong⟩), overlongSession.documenter.without ["/T.ts"]) := by
  obtain ⟨hkeys, houtdated⟩ := keys_overlongSession
  have hfault : overlongSession.documenter.isOutdated curatedDisk.toFileSystem overlong.toString =
      .error (.file ⟨.nameTooLong, overlong⟩) := by
    have hlookup : curatedDisk.exists? overlong = .error ⟨.nameTooLong, overlong⟩ := by
      decide +kernel
    exact isOutdated_of_error wellFormed_overlong hlookup
  have hdropped : (["/T.ts"].filter fun key =>
      overlongSession.documenter.isOutdated curatedDisk.toFileSystem key = .ok true) =
        ["/T.ts"] := by
    rw [List.filter_singleton, houtdated]
    rfl
  rw [invalidate_of_error ["/T.ts"] hkeys (by decide +kernel) (by simp [houtdated]) hfault,
    hdropped]

/-- A record is made of a component that is missing together with its directory, and afterwards
there is the directory.  An invalidation that fails at that record has dropped another one, which is
listed nowhere. -/
theorem record_dropped_unlisted :
    let first := (Configuration.plain {}).session .blank
      [.change (.holding "T.ts" "interface TProps\x7ba:A\x7d")]
    let failing := ((first.next (.call (.document "T.ts"))).next
      (.call (.document overlong.toString))).next (.change curatedDisk)
    let s := failing.next (.call .invalidate)
    replyDescription (first.documenter.document first.disk.toFileSystem (Path.ofString "T.ts")) =
      some "T component" ∧
    (failing.documenter.invalidate failing.disk.toFileSystem).1.toOption = none ∧
    replyDescription (s.documenter.document s.disk.toFileSystem (Path.ofString "T.ts")) =
      some "d" := by
  intro first failing s
  have hfirst : replyDescription (first.documenter.document first.disk.toFileSystem
      (Path.ofString "T.ts")) = some "T component" := by
    decide +kernel
  have hlater : replyDescription ((overlongSession.documenter.without ["/T.ts"]).document
      curatedDisk.toFileSystem (Path.ofString "T.ts")) = some "d" := by
    rw [documenter_overlongSession]
    decide +kernel
  have hfailing : failing = overlongSession := rfl
  have hdisk : overlongSession.disk = curatedDisk := rfl
  clear_value failing
  subst hfailing
  refine ⟨hfirst, by rw [hdisk, invalidate_overlongSession]; rfl, ?_⟩
  rw [Session.documenter_next_call, Session.disk_next_call, perform, hdisk,
    invalidate_overlongSession]
  exact hlater

end ComponentDocs
