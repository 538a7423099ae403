import ComponentDocs.Diagnostic
import ComponentDocs.FileSystem
import ComponentDocs.Template

/-!
# Journals

A journal writes records to the console and, if it is told so, to a file as well.  Records come in
on channels, each of which passes them on to the channels above it; what writes them, its sinks,
hangs on the uppermost one.  Telling the journal anew replaces its sinks, so that no record is
written twice.  A collector keeps diagnostics and has each of them written as a record.
-/

namespace ComponentDocs

/-- How important a record is.  Any number will do, and some have names. -/
structure Level where
  rank : Int
  deriving DecidableEq, Repr

namespace Level

instance : LE Level := ⟨fun low high => low.rank ≤ high.rank⟩

instance (low high : Level) : Decidable (low ≤ high) :=
  inferInstanceAs (Decidable (low.rank ≤ high.rank))

def debug : Level := ⟨10⟩
def info : Level := ⟨20⟩
def warning : Level := ⟨30⟩
def error : Level := ⟨40⟩
def critical : Level := ⟨50⟩

/-- The levels with names. -/
def names : List (Level × String) :=
  [(critical, "CRITICAL"), (error, "ERROR"), (warning, "WARNING"), (info, "INFO"),
    (debug, "DEBUG"), (⟨0⟩, "NOTSET")]

/-- The name of a level; one without a name is called by its number. -/
def name (level : Level) : String := (names.lookup level).getD ("Level " ++ toString level.rank)

end Level

/-- The level at which a diagnostic is recorded. -/
def Severity.level : Severity → Level
  | .info => .info
  | .warning => .warning
  | .error => .error

/-- A record on a channel, with the trace of the failure that it reports, if there is one. -/
structure JournalRecord where
  level : Level
  channel : String
  message : String
  trace : Option String := none
  deriving DecidableEq, Repr

/-- Where records are written. -/
inductive Target where
  | console
  | file (path : Path)
  deriving DecidableEq, Repr

/-- What writes the records that reach its threshold. -/
structure Sink where
  target : Target
  threshold : Level
  deriving DecidableEq, Repr

/-- The threshold of a journal, if it has been told one yet, and its sinks. -/
structure Journal where
  threshold : Option Level := none
  sinks : List Sink := []
  deriving DecidableEq, Repr

/-- Diagnostics kept in their order, and the name of the channel that they are written on. -/
structure Collector where
  name : Option String := some "diagnostics"
  records : List Diagnostic := []
  deriving DecidableEq, Repr

/-! ## Channels -/

namespace Journal

/-- The channel above all others. -/
def root : String := "compdoc"

/-- The full name of a channel. -/
def channel (name : Option String) : String :=
  match name with
  | some name => if name = "" then root else root ++ "." ++ name
  | none => root

/-- What stands before each dot, from the first dot on. -/
def beforeDots : List Char → List (List Char)
  | [] => []
  | c :: rest => (if c = '.' then [[]] else []) ++ (beforeDots rest).map (c :: ·)

/-- A channel and those above it, nearest first. -/
def upward (channel : String) : List String :=
  channel :: (beforeDots channel.toList).reverse.map String.ofList

/-! ## Sinks -/

/-- The sinks of a channel. -/
def sinksOf (j : Journal) (channel : String) : List Sink := if channel = root then j.sinks else []

def attach (j : Journal) (s : Sink) : Journal := { j with sinks := j.sinks ++ [s] }

def detach (j : Journal) (s : Sink) : Journal := { j with sinks := j.sinks.erase s }

/-- Tells a journal where to write.  If its file cannot be opened, only the console is left, and
the reason is given. -/
def configure (j : Journal) (fs : FileSystem) (verbose : Bool) (file : Option Path) (time : Int) :
    Option FileError × Journal × FileSystem :=
  let level := if verbose then Level.debug else Level.info
  let j := j.sinks.foldl detach { j with threshold := some level }
  let j := j.attach ⟨.console, level⟩
  match file with
  | none => (none, j, fs)
  | some file =>
    let file := fs.resolve file
    match fs.append file [] time with
    | .ok fs => (none, j.attach ⟨.file file, level⟩, fs)
    | .error e => (some e, j, fs)

/-- The number of places that a journal writes to. -/
def sinkCount (j : Journal) : Nat := j.sinks.length

/-! ## Writing -/

/-- Whether records of a level are written. -/
def writes (j : Journal) (level : Level) : Bool :=
  j.threshold.any fun threshold => threshold ≤ level

/-- A line with the trace of a failure below it. -/
def withTrace (line : String) : Option String → String
  | none => line
  | some trace => line ++ (if line.toList.getLast? = some '\n' then "" else "\n") ++ trace

/-- A record as the console shows it. -/
def consoleLine (r : JournalRecord) : String :=
  withTrace ("[compdoc] " ++ r.level.name ++ " " ++ r.message) r.trace ++ "\n"

/-- A record as it stands in a file, behind the moment it was made. -/
def fileLine (moment : String) (r : JournalRecord) : String :=
  withTrace (moment ++ " " ++ r.level.name ++ " " ++ r.channel ++ ": " ++ r.message) r.trace ++ "\n"

/-- Hands a record to a sink, with what the console has shown so far and the files. -/
def deliver (moment : String) (time : Int) (r : JournalRecord) (shown : String × FileSystem)
    (s : Sink) : String × FileSystem :=
  if s.threshold ≤ r.level then
    match s.target with
    | .console => (shown.1 ++ consoleLine r, shown.2)
    | .file path =>
      match shown.2.append path (Text.bytesOf (fileLine moment r)) time with
      | .ok fs => (shown.1, fs)
      | .error _ => shown
  else shown

/-- Writes a record: what the console shows of it, and the files with the record added. -/
def write (j : Journal) (fs : FileSystem) (moment : String) (time : Int) (r : JournalRecord) :
    String × FileSystem :=
  if j.writes r.level then
    ((upward r.channel).flatMap j.sinksOf).foldl (deliver moment time r) ("", fs)
  else ("", fs)

/-- The values for a message: a mapping alone names its entries, unless it is empty. -/
def valuesOf : List Datum → TemplateValues
  | [.mapping (entry :: rest)] => .entries (entry :: rest)
  | values => .row values

/-- The record of a message; one whose template cannot be filled is no record. -/
def record? (level : Level) (channel template : String) (values : List Datum) :
    Option JournalRecord :=
  if values.isEmpty then some { level, channel, message := template }
  else (Template.fill template (valuesOf values)).toOption.map fun message =>
    { level, channel, message }

/-- Writes a message, if it makes a record. -/
def log (j : Journal) (fs : FileSystem) (moment : String) (time : Int) (level : Level)
    (channel template : String) (values : List Datum) : String × FileSystem :=
  match record? level channel template values with
  | some r => j.write fs moment time r
  | none => ("", fs)

/-! ## Collecting -/

/-- The record of a diagnostic; the trace of the failure behind it is for those who want every
detail. -/
def recordOf (j : Journal) (channel : String) (d : Diagnostic) (trace : Option String) :
    JournalRecord :=
  ⟨d.severity.level, channel, d.file ++ ": " ++ d.message,
    if j.writes .debug then trace else none⟩

/-- Makes a diagnostic, keeps it and writes its record. -/
def collect (j : Journal) (fs : FileSystem) (moment : String) (time : Int) (c : Collector)
    (severity : Severity) (file template : String) (values : List Datum) (trace : Option String) :
    Except TemplateProblem (Collector × String × FileSystem) := do
  let d : Diagnostic := ⟨file, severity, ← Template.message template values⟩
  return ({ c with records := c.records ++ [d] },
    j.write fs moment time (j.recordOf (channel c.name) d trace))

end Journal

namespace Collector

/-- The diagnostics about a file. -/
def forFile (c : Collector) (file : String) : List Diagnostic := c.records.filter (·.file == file)

def clear (c : Collector) : Collector := { c with records := [] }

end Collector

end ComponentDocs
