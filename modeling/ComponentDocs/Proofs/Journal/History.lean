import Mathlib.Data.List.DropRight
import Mathlib.Data.List.Induction
import Mathlib.Logic.Function.Basic
import ComponentDocs.Proofs.Journal.Delivery

/-!
# What a journal writes in the course of time

A history tells a journal where to write, again and again, and in between logs messages and collects
diagnostics, on any channels.  From the first time on that the journal is told, each record that
reaches the threshold of the latest setting is written exactly once to the console, and exactly once
to the file of that setting, if there is one, and nowhere else (`written_once`).

The records that are due are known from the calls alone (`due`): each call makes at most one, which
goes by the latest setting before it.  `Written` is what holds of the console and the files at every
moment, and `Kept` of the collectors.
-/

namespace ComponentDocs.Journal

/-! ## Histories -/

/-- What is asked of a journal and its collectors, which are numbered. -/
inductive Act where
  | configure (verbose : Bool) (file : Option Path)
  | log (level : Level) (name : Option String) (template : String) (values : List Datum)
  | collect (collector : ℕ) (severity : Severity) (file template : String) (values : List Datum)
      (trace : Option String)
  | clear (collector : ℕ)

/-- An act with its moment, as text and as the time of change of the files that it writes. -/
structure Call where
  moment : String
  time : Int
  act : Act

/-- A journal with the files, what the console has shown so far, and the collectors. -/
structure Session where
  journal : Journal
  fs : FileSystem
  console : String
  collectors : ℕ → Collector

namespace Session

/-- The session after one more call. -/
def next (s : Session) (call : Call) : Session :=
  match call.act with
  | .configure verbose file =>
    let (_, journal, fs) := s.journal.configure s.fs verbose file call.time
    { s with journal, fs }
  | .log level name template values =>
    let (shown, fs) :=
      s.journal.log s.fs call.moment call.time level (channel name) template values
    { s with fs, console := s.console ++ shown }
  | .collect n severity file template values trace =>
    match s.journal.collect s.fs call.moment call.time (s.collectors n) severity file template
        values trace with
    | .ok (c, shown, fs) =>
      { s with fs, console := s.console ++ shown, collectors := Function.update s.collectors n c }
    | .error _ => s
  | .clear n => { s with collectors := Function.update s.collectors n (s.collectors n).clear }

def run (s : Session) (calls : List Call) : Session := calls.foldl next s

end Session

/-! ## What is due -/

/-- What an act tells a journal. -/
def setting? (fs : FileSystem) : Act → Option Setting
  | .configure verbose file => some ⟨if verbose then .debug else .info, file.map fs.resolve⟩
  | _ => none

/-- What a journal has been told last. -/
def latest? (fs : FileSystem) (calls : List Call) : Option Setting :=
  (calls.filterMap fun call => setting? fs call.act).getLast?

/-- The files that a journal is told to write to. -/
def files (fs : FileSystem) (calls : List Call) : List Path :=
  calls.filterMap fun call => (setting? fs call.act).bind Setting.file

/-- The diagnostic that an act makes for a collector, if its template can be filled. -/
def diagnostic? (n : ℕ) : Act → Option Diagnostic
  | .collect m severity file template values _ =>
    if m = n then (Template.message template values).toOption.map (⟨file, severity, ·⟩) else none
  | _ => none

/-- Whether an act is to collect a diagnostic whose template cannot be filled. -/
def Act.Fails : Act → Prop
  | .collect _ _ _ template values _ => ∃ e, Template.message template values = .error e
  | _ => False

/-- The record that an act makes, if its template can be filled.  That of a diagnostic bears its
text behind the file. -/
def recordOf? (names : ℕ → Option String) (s : Setting) (act : Act) : Option JournalRecord :=
  match act with
  | .log level name template values => record? level (channel name) template values
  | .collect n _ _ _ _ trace =>
    (diagnostic? n act).map fun d =>
      ⟨d.severity.level, channel (names n), d.file ++ ": " ++ d.message,
        if s.threshold ≤ .debug then trace else none⟩
  | _ => none

/-- A record that has to be written, and the file that it has to be written to, if any. -/
structure Due where
  moment : String
  record : JournalRecord
  file : Option Path

/-- The record that is due for a call after others. -/
def due? (names : ℕ → Option String) (fs : FileSystem) (before : List Call) (call : Call) :
    Option Due := do
  let s ← latest? fs before
  let r ← recordOf? names s call.act
  if s.threshold ≤ r.level then some ⟨call.moment, r, s.file⟩ else none

/-- The records that are due, in the order of the calls that make them. -/
def due (names : ℕ → Option String) (fs : FileSystem) (calls : List Call) : List Due :=
  calls.zipIdx.filterMap fun (call, n) => due? names fs (calls.take n) call

/-- What records add to a file. -/
def bytesFor (p : Path) (records : List Due) : List UInt8 :=
  (records.filter fun d => d.file = some p).flatMap fun d =>
    Text.bytesOf (fileLine d.moment d.record)

/-- Whether an act makes a collector forget its diagnostics. -/
def clears (n : ℕ) : Act → Bool
  | .clear m => m = n
  | _ => false

/-- The diagnostics of a collector after some calls: those made since it last forgot them, behind
those from the start if it never did. -/
def diagnostics (n : ℕ) (start : List Diagnostic) (calls : List Call) : List Diagnostic :=
  (if calls.any fun call => clears n call.act then [] else start) ++
    (calls.rtakeWhile fun call => !clears n call.act).filterMap fun call => diagnostic? n call.act

/-! ## One more call -/

section Concat

variable {names : ℕ → Option String} {fs : FileSystem} {calls : List Call} {call : Call}

theorem latest?_concat :
    latest? fs (calls ++ [call]) = (setting? fs call.act).or (latest? fs calls) := by
  rw [latest?, List.filterMap_append]
  cases hsetting : setting? fs call.act <;> simp [latest?, hsetting]

theorem files_concat :
    files fs (calls ++ [call]) =
      files fs calls ++ ((setting? fs call.act).bind Setting.file).toList := by
  rw [files, List.filterMap_append]
  cases hfile : (setting? fs call.act).bind Setting.file <;> simp [files, hfile]

theorem mem_files_of_latest? {s : Setting} {p : Path} (hlatest : latest? fs calls = some s)
    (hfile : s.file = some p) : p ∈ files fs calls := by
  obtain ⟨call, hcall, hsetting⟩ := List.mem_filterMap.mp (List.mem_of_getLast? hlatest)
  exact List.mem_filterMap.mpr ⟨call, hcall, by rw [hsetting, Option.bind_some, hfile]⟩

theorem settled_of_mem_files {p : Path} (hp : p ∈ files fs calls) : p.Settled := by
  obtain ⟨call, -, hfile⟩ := List.mem_filterMap.mp hp
  obtain ⟨s, hsetting, hfile⟩ := Option.bind_eq_some_iff.mp hfile
  cases hact : call.act with
  | configure verbose file =>
      rw [hact] at hsetting
      cases hsetting
      obtain ⟨q, -, rfl⟩ := Option.map_eq_some_iff.mp hfile
      exact FileSystem.settled_resolve fs q
  | log | collect | clear => simp [hact, setting?] at hsetting

/-- The records of a call are on channels of the journal. -/
theorem exists_channel {s : Setting} {r : JournalRecord}
    (hrecord : recordOf? names s call.act = some r) : ∃ name, r.channel = channel name := by
  unfold recordOf? at hrecord
  cases hact : call.act with
  | configure | clear => simp [hact] at hrecord
  | log level name template values =>
      simp only [hact, record?] at hrecord
      split at hrecord
      · cases hrecord
        exact ⟨name, rfl⟩
      · obtain ⟨message, -, rfl⟩ := Option.map_eq_some_iff.mp hrecord
        exact ⟨name, rfl⟩
  | collect n severity file template values trace =>
      simp only [hact] at hrecord
      obtain ⟨d, -, rfl⟩ := Option.map_eq_some_iff.mp hrecord
      exact ⟨names n, rfl⟩

theorem due_concat :
    due names fs (calls ++ [call]) = due names fs calls ++ (due? names fs calls call).toList := by
  have hbefore : ∀ x ∈ calls.zipIdx,
      due? names fs ((calls ++ [call]).take x.2) x.1 = due? names fs (calls.take x.2) x.1 := by
    intro x hx
    rw [List.take_append_of_le_length (Nat.le_of_lt (List.snd_lt_of_mem_zipIdx hx))]
  rw [due, List.zipIdx_append, List.filterMap_append, List.filterMap_congr hbefore]
  simp only [List.zipIdx_singleton, Nat.zero_add, List.filterMap_cons, List.filterMap_nil,
    List.take_left]
  cases due? names fs calls call <;> rfl

theorem diagnostics_concat {n : ℕ} {start : List Diagnostic} :
    diagnostics n start (calls ++ [call]) =
      if clears n call.act then []
      else diagnostics n start calls ++ (diagnostic? n call.act).toList := by
  unfold diagnostics
  cases hclears : clears n call.act with
  | true => simp [hclears]
  | false =>
      rw [List.rtakeWhile_concat_pos _ _ _ (by simp [hclears]), List.filterMap_append]
      cases hdiagnostic : diagnostic? n call.act <;> simp [hclears, hdiagnostic]

theorem bytesFor_append (p : Path) (records more : List Due) :
    bytesFor p (records ++ more) = bytesFor p records ++ bytesFor p more := by
  simp [bytesFor]

/-- A diagnostic whose template cannot be filled is neither kept nor written. -/
theorem next_of_fails (s : Session) (hfails : call.act.Fails) : s.next call = s := by
  cases hact : call.act with
  | collect n severity file template values trace =>
      rw [hact] at hfails
      obtain ⟨e, hmessage⟩ := hfails
      rw [Session.next, hact]
      simp only [collect, hmessage, bind, Except.bind]
  | configure | log | clear => simp [hact, Act.Fails] at hfails

end Concat

/-! ## What stands where -/

/-- The console and the files show the records that are due, and nothing else, behind what they
showed at the start.  Only the named files have been opened. -/
structure Written (start : Session) (named : List Path) (records : List Due) (console : String)
    (fs : FileSystem) : Prop where
  resolve_eq : ∀ p, fs.resolve p = start.fs.resolve p
  appendable : ∀ p, start.fs.Appendable p → fs.Appendable p
  named_of_due : ∀ d ∈ records, ∀ p, d.file = some p → p ∈ named
  console_eq : console = start.console ++ String.join (records.map fun d => consoleLine d.record)
  read_eq : ∀ p : Path, p.Settled → (fs.read p).toOption =
    if p ∈ named then some ((start.fs.read p).toOption.getD [] ++ bytesFor p records)
    else (start.fs.read p).toOption

namespace Written

variable {start : Session} {named : List Path} {records : List Due} {console : String}
  {fs gs : FileSystem} {p : Path} {time : Int}

theorem nothing (start : Session) : Written start [] [] start.console start.fs where
  resolve_eq _ := rfl
  appendable _ hp := hp
  named_of_due _ hd := absurd hd List.not_mem_nil
  console_eq := by simp
  read_eq _ _ := by simp

/-- Opening a file writes nothing. -/
theorem opened (hwritten : Written start named records console fs) (hp : p.Settled)
    (happend : fs.append p [] time = .ok gs) :
    Written start (named ++ [p]) records console gs where
  resolve_eq q := (FileSystem.resolve_append happend q).trans (hwritten.resolve_eq q)
  appendable q hq := (hwritten.appendable q hq).append hp happend
  named_of_due d hd q hq := List.mem_append_left _ (hwritten.named_of_due d hd q hq)
  console_eq := hwritten.console_eq
  read_eq q hq := by
    rw [FileSystem.read_append hp hq happend, hwritten.read_eq p hp, hwritten.read_eq q hq]
    by_cases hsame : q = p
    · subst hsame
      by_cases hnamed : q ∈ named
      · simp [hnamed]
      · -- a file that was not open has got no records yet
        have hnone : bytesFor q records = [] := by
          rw [bytesFor, List.filter_eq_nil_iff.mpr, List.flatMap_nil]
          exact fun d hd hfile => hnamed (hwritten.named_of_due d hd q (of_decide_eq_true hfile))
        simp [hnamed, hnone]
    · simp [hsame]

/-- A record for a file comes behind the others. -/
theorem concat (hwritten : Written start named records console fs) {d : Due}
    (hnamed : ∀ p, d.file = some p → p ∈ named ∧ p.Settled ∧ start.fs.Appendable p) :
    Written start named (records ++ [d]) (console ++ consoleLine d.record)
      (d.file.elim fs fun p =>
        ((fs.append p (Text.bytesOf (fileLine d.moment d.record)) time).toOption).getD fs) := by
  have hconsole : console ++ consoleLine d.record =
      start.console ++ String.join ((records ++ [d]).map fun d => consoleLine d.record) := by
    rw [hwritten.console_eq, List.map_append, String.join_append, String.append_assoc]
    simp
  have hdue : ∀ e ∈ records ++ [d], ∀ p, e.file = some p → p ∈ named := by
    rw [List.forall_mem_append, List.forall_mem_singleton]
    exact ⟨hwritten.named_of_due, fun p hp => (hnamed p hp).1⟩
  cases hfile : d.file with
  | none =>
      refine ⟨hwritten.resolve_eq, hwritten.appendable, hdue, hconsole, fun q hq => ?_⟩
      have hbytes : bytesFor q [d] = [] := by simp [bytesFor, hfile]
      rw [bytesFor_append, hbytes, List.append_nil]
      exact hwritten.read_eq q hq
  | some p =>
      obtain ⟨hmem, hp, hopen⟩ := hnamed p hfile
      obtain ⟨gs, happend⟩ :
          ∃ gs, fs.append p (Text.bytesOf (fileLine d.moment d.record)) time = .ok gs :=
        (FileSystem.append_isOk_iff hp).mpr (hwritten.appendable p hopen)
      simp only [Option.elim_some, happend, Except.toOption, Option.getD_some]
      refine ⟨fun q => ?_, fun q hq => (hwritten.appendable q hq).append hp happend, hdue, hconsole,
        fun q hq => ?_⟩
      · exact (FileSystem.resolve_append happend q).trans (hwritten.resolve_eq q)
      · rw [FileSystem.read_append hp hq happend, hwritten.read_eq p hp, hwritten.read_eq q hq,
          bytesFor_append]
        by_cases hsame : q = p
        · subst hsame
          simp [hmem, bytesFor, hfile]
        · simp [hsame, bytesFor, hfile, Ne.symm hsame]

end Written

/-- The names of the channels that the collectors write on. -/
def Session.names (s : Session) (n : ℕ) : Option String := (s.collectors n).name

/-- What holds after some calls. -/
structure Follows (start : Session) (calls : List Call) (s : Session) : Prop where
  told : ∀ setting, latest? start.fs calls = some setting → s.journal = Journal.told setting
  written : Written start (files start.fs calls) (due start.names start.fs calls) s.console s.fs
  collectors : ∀ n, s.collectors n =
    ⟨start.names n, diagnostics n (start.collectors n).records calls⟩

namespace Follows

variable {start s : Session} {calls : List Call} {call : Call} {setting : Setting}

/-- An act that makes no record and tells the journal nothing leaves all as it is written. -/
theorem written_of_none (hfollows : Follows start calls s)
    (hlatest : latest? start.fs calls = some setting) (htells : setting? start.fs call.act = none)
    (hrecord : recordOf? start.names setting call.act = none) :
    Written start (files start.fs (calls ++ [call])) (due start.names start.fs (calls ++ [call]))
      s.console s.fs := by
  have hdue : due? start.names start.fs calls call = none := by simp [due?, hlatest, hrecord]
  rw [files_concat, due_concat, htells, hdue]
  simpa using hfollows.written

/-- A record is written as it is due. -/
theorem written_of_some (hfollows : Follows start calls s)
    (hlatest : latest? start.fs calls = some setting) (htells : setting? start.fs call.act = none)
    {r : JournalRecord} (hrecord : recordOf? start.names setting call.act = some r)
    (hopen : ∀ p ∈ files start.fs calls, start.fs.Appendable p) :
    let shown := s.journal.write s.fs call.moment call.time r
    Written start (files start.fs (calls ++ [call])) (due start.names start.fs (calls ++ [call]))
      (s.console ++ shown.1) shown.2 := by
  obtain ⟨name, hchannel⟩ := exists_channel hrecord
  have hshown := write_told setting s.fs call.moment call.time hchannel
  rw [← hfollows.told setting hlatest] at hshown
  intro shown
  by_cases hlevel : setting.threshold ≤ r.level
  · have hdue : due? start.names start.fs calls call = some ⟨call.moment, r, setting.file⟩ := by
      simp [due?, hlatest, hrecord, hlevel]
    rw [files_concat, due_concat, htells, hdue, show shown = _ from hshown, if_pos hlevel]
    simp only [Option.bind_none, Option.toList_none, List.append_nil, Option.toList_some]
    refine hfollows.written.concat fun p hp => ?_
    have hmem := mem_files_of_latest? hlatest hp
    exact ⟨hmem, settled_of_mem_files hmem, hopen p hmem⟩
  · have hdue : due? start.names start.fs calls call = none := by
      simp [due?, hlatest, hrecord, hlevel]
    rw [files_concat, due_concat, htells, hdue, show shown = _ from hshown, if_neg hlevel]
    simpa using hfollows.written

theorem nothing (start : Session) : Follows start [] start where
  told _ hlatest := by cases hlatest
  written := .nothing start
  collectors _ := by simp [diagnostics, Session.names]

/-- Acts that tell the journal nothing leave it as it was told. -/
theorem told_concat (hfollows : Follows start calls s)
    (htells : setting? start.fs call.act = none) :
    ∀ setting, latest? start.fs (calls ++ [call]) = some setting →
      s.journal = Journal.told setting := by
  rw [latest?_concat, htells, Option.none_or]
  exact hfollows.told

/-- Acts that collect nothing leave the collectors as they were. -/
theorem collectors_concat (hfollows : Follows start calls s)
    (hclears : ∀ n, clears n call.act = false) (hnone : ∀ n, diagnostic? n call.act = none)
    (n : ℕ) :
    s.collectors n =
      ⟨start.names n, diagnostics n (start.collectors n).records (calls ++ [call])⟩ := by
  rw [hfollows.collectors, diagnostics_concat, hclears, hnone]
  simp

theorem configure (hfollows : Follows start calls s) {verbose : Bool} {file : Option Path}
    (hact : call.act = .configure verbose file)
    (hopen : ∀ p ∈ files start.fs (calls ++ [call]), start.fs.Appendable p) :
    Follows start (calls ++ [call]) (s.next call) := by
  have hresolve : s.fs.resolve = start.fs.resolve := funext hfollows.written.resolve_eq
  have hsetting : setting? start.fs call.act =
      some ⟨if verbose then .debug else .info, file.map start.fs.resolve⟩ := by rw [hact]; rfl
  have hfiles : files start.fs (calls ++ [call]) =
      files start.fs calls ++ (file.map start.fs.resolve).toList := by
    rw [files_concat, hsetting]
    rfl
  have hdue : due? start.names start.fs calls call = none := by
    cases hlatest : latest? start.fs calls <;> simp [due?, hlatest, recordOf?, hact]
  -- the file can be opened now, since it could be at the start
  obtain ⟨gs, hgs, hwritten⟩ : ∃ gs,
      opened s.fs (file.map s.fs.resolve) call.time = .ok gs ∧
        Written start (files start.fs (calls ++ [call])) (due start.names start.fs calls)
          s.console gs := by
    rw [hfiles] at hopen ⊢
    cases file with
    | none => exact ⟨s.fs, rfl, by simpa using hfollows.written⟩
    | some file =>
        have hsettled := FileSystem.settled_resolve start.fs file
        obtain ⟨gs, happend⟩ : ∃ gs, s.fs.append (start.fs.resolve file) [] call.time = .ok gs :=
          (FileSystem.append_isOk_iff hsettled).mpr
            (hfollows.written.appendable _ (hopen _ (by simp)))
        rw [hresolve]
        exact ⟨gs, happend, hfollows.written.opened hsettled happend⟩
  have hnext : s.next call = { s with
      journal := Journal.told ⟨if verbose then .debug else .info, file.map start.fs.resolve⟩
      fs := gs } := by
    rw [Session.next, hact]
    simp only [configure_told s.journal verbose hgs, hresolve]
  rw [hnext]
  refine ⟨fun setting hlatest => ?_, ?_, ?_⟩
  · rw [latest?_concat, hsetting, Option.some_or, Option.some.injEq] at hlatest
    rw [hlatest]
  · rw [due_concat, hdue, Option.toList_none, List.append_nil]
    exact hwritten
  · exact hfollows.collectors_concat (fun n => by rw [hact]; rfl) fun n => by rw [hact]; rfl

theorem log (hfollows : Follows start calls s) {level : Level} {name : Option String}
    {template : String} {values : List Datum} (hact : call.act = .log level name template values)
    (hlatest : latest? start.fs calls = some setting)
    (hopen : ∀ p ∈ files start.fs calls, start.fs.Appendable p) :
    Follows start (calls ++ [call]) (s.next call) := by
  have htells : setting? start.fs call.act = none := by rw [hact]; rfl
  have hrecord : recordOf? start.names setting call.act =
      record? level (channel name) template values := by rw [hact]; rfl
  have hnext : s.next call = { s with
      fs := (s.journal.log s.fs call.moment call.time level (channel name) template values).2
      console := s.console ++
        (s.journal.log s.fs call.moment call.time level (channel name) template values).1 } := by
    rw [Session.next, hact]
  rw [hnext]
  refine ⟨hfollows.told_concat htells, ?_,
    hfollows.collectors_concat (fun n => by rw [hact]; rfl) fun n => by rw [hact]; rfl⟩
  dsimp only [Journal.log]
  cases hmade : record? level (channel name) template values with
  | none => simpa using hfollows.written_of_none hlatest htells (hrecord.trans hmade)
  | some r => exact hfollows.written_of_some hlatest htells (hrecord.trans hmade) hopen

theorem collect (hfollows : Follows start calls s) {n : ℕ} {severity : Severity}
    {file template : String} {values : List Datum} {trace : Option String}
    (hact : call.act = .collect n severity file template values trace)
    (hlatest : latest? start.fs calls = some setting)
    (hopen : ∀ p ∈ files start.fs calls, start.fs.Appendable p) :
    Follows start (calls ++ [call]) (s.next call) := by
  have htells : setting? start.fs call.act = none := by rw [hact]; rfl
  have hclears (m : ℕ) : clears m call.act = false := by rw [hact]; rfl
  cases hmessage : Template.message template values with
  | error e =>
      have hnone (m : ℕ) : diagnostic? m call.act = none := by
        rw [hact, diagnostic?]
        simp [hmessage, Except.toOption]
      have hrecord : recordOf? start.names setting call.act = none := by
        have hnone := hnone n
        rw [hact] at hnone ⊢
        rw [recordOf?, hnone, Option.map_none]
      have hfails : call.act.Fails := by
        rw [hact]
        exact ⟨e, hmessage⟩
      rw [next_of_fails s hfails]
      exact ⟨hfollows.told_concat htells, hfollows.written_of_none hlatest htells hrecord,
        hfollows.collectors_concat hclears hnone⟩
  | ok text =>
      have hdiagnostic (m : ℕ) : diagnostic? m call.act =
          if n = m then some ⟨file, severity, text⟩ else none := by
        rw [hact, diagnostic?, hmessage]
        rfl
      let r := s.journal.recordOf (channel (s.collectors n).name) ⟨file, severity, text⟩ trace
      have hrecord : recordOf? start.names setting call.act = some r := by
        have hdiagnostic := hdiagnostic n
        rw [hact] at hdiagnostic ⊢
        rw [recordOf?, hdiagnostic, if_pos rfl]
        simp [r, recordOf, hfollows.told setting hlatest, hfollows.collectors, Journal.told, writes]
      have hnext : s.next call = { s with
          fs := (s.journal.write s.fs call.moment call.time r).2
          console := s.console ++ (s.journal.write s.fs call.moment call.time r).1
          collectors := Function.update s.collectors n { s.collectors n with
            records := (s.collectors n).records ++ [⟨file, severity, text⟩] } } := by
        rw [Session.next, hact]
        simp only [Journal.collect, hmessage, bind, Except.bind, pure, Except.pure]
        rfl
      rw [hnext]
      refine ⟨hfollows.told_concat htells, hfollows.written_of_some hlatest htells hrecord hopen,
        fun m => ?_⟩
      dsimp only
      by_cases hm : m = n
      · subst hm
        rw [Function.update_self, hfollows.collectors, diagnostics_concat, hclears, hdiagnostic]
        simp
      · rw [Function.update_of_ne hm, hfollows.collectors, diagnostics_concat, hclears, hdiagnostic,
          if_neg (Ne.symm hm)]
        simp

theorem clear (hfollows : Follows start calls s) {n : ℕ} (hact : call.act = .clear n)
    (hlatest : latest? start.fs calls = some setting) :
    Follows start (calls ++ [call]) (s.next call) := by
  have htells : setting? start.fs call.act = none := by rw [hact]; rfl
  have hrecord : recordOf? start.names setting call.act = none := by rw [hact]; rfl
  rw [Session.next, hact]
  refine ⟨hfollows.told_concat htells, hfollows.written_of_none hlatest htells hrecord,
    fun m => ?_⟩
  dsimp only
  rw [diagnostics_concat, hact]
  by_cases hm : m = n
  · subst hm
    rw [Function.update_self, hfollows.collectors]
    simp [Collector.clear, clears]
  · rw [Function.update_of_ne hm, hfollows.collectors]
    simp [clears, diagnostic?, Ne.symm hm]

/-- **One more call.** -/
theorem next (hfollows : Follows start calls s)
    (htold : (setting? start.fs call.act).isSome ∨ (latest? start.fs calls).isSome)
    (hopen : ∀ p ∈ files start.fs (calls ++ [call]), start.fs.Appendable p) :
    Follows start (calls ++ [call]) (s.next call) := by
  have hbefore : ∀ p ∈ files start.fs calls, start.fs.Appendable p := fun p hp =>
    hopen p (by rw [files_concat]; exact List.mem_append_left _ hp)
  have hlatest (htells : setting? start.fs call.act = none) :
      ∃ setting, latest? start.fs calls = some setting :=
    Option.isSome_iff_exists.mp (by simpa [htells] using htold)
  cases hact : call.act with
  | configure verbose file => exact hfollows.configure hact hopen
  | log level name template values =>
      obtain ⟨setting, hlatest⟩ := hlatest (by rw [hact]; rfl)
      exact hfollows.log hact hlatest hbefore
  | collect n severity file template values trace =>
      obtain ⟨setting, hlatest⟩ := hlatest (by rw [hact]; rfl)
      exact hfollows.collect hact hlatest hbefore
  | clear n =>
      obtain ⟨setting, hlatest⟩ := hlatest (by rw [hact]; rfl)
      exact hfollows.clear hact hlatest

theorem run {first : Call} (hfirst : (setting? start.fs first.act).isSome) (rest : List Call)
    (hopen : ∀ p ∈ files start.fs (first :: rest), start.fs.Appendable p) :
    Follows start (first :: rest) (start.run (first :: rest)) := by
  induction rest using List.reverseRecOn with
  | nil => exact (nothing start).next (.inl hfirst) hopen
  | append_singleton rest call ih =>
      have htold : (latest? start.fs (first :: rest)).isSome := by
        obtain ⟨setting, hsetting⟩ := Option.isSome_iff_exists.mp hfirst
        simp [latest?, hsetting]
      rw [← List.cons_append] at hopen ⊢
      rw [Session.run, List.foldl_append]
      refine (ih fun p hp => hopen p ?_).next (.inr htold) hopen
      rw [files_concat]
      exact List.mem_append_left _ hp

end Follows

/-- **Every record is written exactly once.**  Behind what it showed before, the console shows one
line for each record that is due: each record made since the journal is told for the first time
that reaches the threshold of the setting at that moment.  Each file that the journal has been told
to write to has got, behind what it held before, one line for each of these records whose setting
names it, and all other files hold what they held.  The collectors keep the diagnostics that they
made since they were cleared last, each of which is a record, too, and one whose template cannot be
filled makes no difference to anything. -/
theorem written_once (start : Session) (moment : String) (time : Int) (verbose : Bool)
    (file : Option Path) (rest : List Call)
    (hopen : ∀ p ∈ files start.fs (⟨moment, time, .configure verbose file⟩ :: rest),
      start.fs.Appendable p) :
    let calls := ⟨moment, time, .configure verbose file⟩ :: rest
    let done := start.run calls
    let records := due start.names start.fs calls
    done.console = start.console ++ String.join (records.map fun d => consoleLine d.record) ∧
    (∀ p : Path, p.Settled → (done.fs.read p).toOption =
      if p ∈ files start.fs calls then
        some ((start.fs.read p).toOption.getD [] ++ bytesFor p records)
      else (start.fs.read p).toOption) ∧
    (∀ n, (done.collectors n).records = diagnostics n (start.collectors n).records calls) ∧
    ∀ before call after, calls = before ++ call :: after → call.act.Fails →
      start.run (before ++ [call]) = start.run before := by
  intro calls done records
  have hdone : Follows start calls done := Follows.run rfl rest hopen
  refine ⟨hdone.written.console_eq, hdone.written.read_eq, fun n => ?_,
    fun before call _ _ hfails => ?_⟩
  · rw [hdone.collectors]
  · rw [Session.run, List.foldl_append]
    exact next_of_fails _ hfails

/-- An empty directory, and a journal that has been told nothing. -/
def untold : Session := ⟨{}, ⟨.directory 0 [], [], []⟩, "", fun _ => {}⟩

/-- Everything is written to one file, and later only what matters to another one. -/
def twoFiles : List Call :=
  [⟨"8:00", 0, .configure true (some (.ofString "all.log"))⟩,
    ⟨"8:01", 0, .log .debug (some "merge") "one" []⟩,
    ⟨"8:02", 0, .configure false (some (.ofString "some.log"))⟩,
    ⟨"8:03", 0, .log .debug (some "merge") "two" []⟩,
    ⟨"8:04", 0, .collect 0 .warning "a.tsx" "no %s" [.text "name"] none⟩,
    ⟨"8:05", 0, .collect 0 .error "a.tsx" "%d" [.text "name"] none⟩]

theorem written_once_twoFiles :
    (∀ p ∈ files untold.fs twoFiles, untold.fs.Appendable p) ∧
    (untold.run twoFiles).console =
      "[compdoc] DEBUG one\n[compdoc] WARNING a.tsx: no name\n" ∧
    ((untold.run twoFiles).fs.read (.ofString "/all.log")).toOption =
      some (Text.bytesOf "8:01 DEBUG compdoc.merge: one\n") ∧
    ((untold.run twoFiles).fs.read (.ofString "/some.log")).toOption =
      some (Text.bytesOf "8:04 WARNING compdoc.diagnostics: a.tsx: no name\n") ∧
    ((untold.run twoFiles).collectors 0).records = [⟨"a.tsx", .warning, "no name"⟩] := by
  have hopen : ∀ p ∈ files untold.fs twoFiles, untold.fs.Appendable p := by
    have hnames : files untold.fs twoFiles = [⟨.root, ["all.log"]⟩, ⟨.root, ["some.log"]⟩] := by
      decide +kernel
    rw [hnames, List.forall_mem_cons, List.forall_mem_singleton]
    constructor
    all_goals
      refine ⟨⟨by decide +kernel, ?_⟩, .inr ⟨by decide +kernel, 0, rfl⟩⟩
      exact List.forall_mem_singleton.mpr ⟨by decide, by decide +kernel⟩
  have hwritten :=
    written_once untold "8:00" 0 true (some (.ofString "all.log")) twoFiles.tail hopen
  refine ⟨hopen, hwritten.1.trans ?_, (hwritten.2.1 _ ?_).trans ?_, (hwritten.2.1 _ ?_).trans ?_,
    (hwritten.2.2.1 0).trans ?_⟩
  · decide +kernel
  · exact ⟨by decide +kernel, by decide +kernel⟩
  · decide +kernel
  · exact ⟨by decide +kernel, by decide +kernel⟩
  · decide +kernel
  · decide +kernel

end ComponentDocs.Journal
