import ComponentDocs.Decimal.Shortest
import ComponentDocs.Record
import ComponentDocs.Text.Quoted
import ComponentDocs.Time.Display
import ComponentDocs.Time.IsoText

/-!
# Data of curated files

The values that a data file or an assignment file can hold.  A mapping lists its entries in the
order of their first appearance.  Besides plain data a value can be a finished record part, which
code that builds curated data may hand over as it is.
-/

namespace ComponentDocs

/-- A value read from a data file or handed over by a caller. -/
inductive Datum where
  | null
  | bool (b : Bool)
  | int (n : Int)
  | float (x : Float)
  | text (s : String)
  | bytes (b : List UInt8)
  | list (items : List Datum)
  | tuple (items : List Datum)
  | set (items : List Datum)
  | mapping (entries : List (Datum × Datum))
  | date (d : Date)
  | dateTime (t : DateTime)
  | property (p : Property)
  | curatedProperty (p : CuratedProperty)
  | usageExample (e : UsageExample)
  | accessibility (a : Accessibility)

namespace Datum

instance : Inhabited Datum := ⟨.null⟩

/-- The name of the kind of a value, as messages give it. -/
def typeName : Datum → String
  | null => "NoneType"
  | bool _ => "bool"
  | int _ => "int"
  | float _ => "float"
  | text _ => "str"
  | bytes _ => "bytes"
  | list _ => "list"
  | tuple _ => "tuple"
  | set _ => "set"
  | mapping _ => "dict"
  | date _ => "date"
  | dateTime _ => "datetime"
  | property _ => "PropDescriptor"
  | curatedProperty _ => "PropOverride"
  | usageExample _ => "Example"
  | accessibility _ => "AccessibilityInfo"

/-! ## Display -/

/-- An optional text in messages. -/
def shownText? : Option String → String
  | some s => Text.quoted s
  | none => "None"

/-- A truth value in messages. -/
def shownBool (b : Bool) : String := if b then "True" else "False"

/-- An optional truth value in messages. -/
def shownBool? : Option Bool → String
  | some b => shownBool b
  | none => "None"

/-- A list of texts in messages. -/
def shownTexts (items : List String) : String :=
  "[" ++ commaJoined (items.map Text.quoted) ++ "]"

mutual

/-- A value as messages show it, with its texts quoted. -/
def shown : Datum → String
  | null => "None"
  | bool b => shownBool b
  | int n => toString n
  | float x => Decimal.text x
  | text s => Text.quoted s
  | bytes b => Text.quotedBytes b
  | list items => "[" ++ commaJoined (shownItems items) ++ "]"
  | tuple items =>
    match items with
    | [item] => "(" ++ shown item ++ ",)"
    | items => "(" ++ commaJoined (shownItems items) ++ ")"
  | set items => if items.isEmpty then "set()" else "\x7b" ++ commaJoined (shownItems items) ++ "\x7d"
  | mapping entries => "\x7b" ++ commaJoined (shownEntries entries) ++ "\x7d"
  | date d => shownDate d
  | dateTime t => shownDateTime t
  | property p =>
    "PropDescriptor(name=" ++ Text.quoted p.name ++ ", type=" ++ Text.quoted p.type ++
      ", required=" ++ shownBool p.required ++ ", description=" ++ shownText? p.description ++
      ", default=" ++ shownText? p.defaultValue ++ ")"
  | curatedProperty p =>
    "PropOverride(name=" ++ Text.quoted p.name ++ ", type=" ++ shownText? p.type ++
      ", required=" ++ shownBool? p.required ++ ", description=" ++ shownText? p.description ++
      ", default=" ++ shownText? p.defaultValue ++ ")"
  | usageExample e =>
    "Example(name=" ++ Text.quoted e.name ++ ", code=" ++ Text.quoted e.code ++
      ", description=" ++ shownText? e.description ++ ")"
  | accessibility a =>
    "AccessibilityInfo(notes=" ++ shownTexts a.notes ++
      ", keyboard_navigation=" ++ shownText? a.keyboardNavigation ++
      ", screen_reader=" ++ shownText? a.screenReader ++
      ", color_contrast=" ++ shownText? a.colorContrast ++
      ", focus_management=" ++ shownText? a.focusManagement ++ ")"

/-- The values of a list as messages show them. -/
def shownItems : List Datum → List String
  | [] => []
  | item :: rest => shown item :: shownItems rest

/-- The entries of a mapping as messages show them. -/
def shownEntries : List (Datum × Datum) → List String
  | [] => []
  | (key, value) :: rest => (shown key ++ ": " ++ shown value) :: shownEntries rest

end

/-- A value as text: a text is its own text, a date or a moment is written out, and all others
are as messages show them. -/
def display : Datum → String
  | text s => s
  | date d => d.isoText
  | dateTime t => t.isoTextWith " "
  | other => other.shown

/-- Whether a value counts as something: not null, false, zero or empty. -/
def truthy : Datum → Bool
  | null => false
  | bool b => b
  | int n => n != 0
  | float x => x != 0
  | text s => s ≠ ""
  | bytes b => !b.isEmpty
  | list items => !items.isEmpty
  | tuple items => !items.isEmpty
  | set items => !items.isEmpty
  | mapping entries => !entries.isEmpty
  | _ => true

/-! ## Keys -/

/-- The value of a number as a fraction with its sign, if it is a finite number. -/
def fraction? : Datum → Option (Int × Nat)
  | bool b => some (if b then 1 else 0, 1)
  | int n => some (n, 1)
  | float x =>
    match Decimal.Parts.ofFloat x with
    | .finite negative m q =>
      let (num, den) := Decimal.powerOfTwo q
      let n : Int := m * num
      some (if negative then -n else n, den)
    | _ => none
  | _ => none

/-- The instant of a moment with an offset, in microseconds. -/
def instant (t : DateTime) : Int :=
  Int.ofNat (((Calendar.ordinal t.date * 24 + t.hour) * 60 + t.minute) * 60 + t.second) * 1000000 +
    t.microsecond - t.offset.getD 0

mutual

/-- Whether two values are the same key: numbers by value, whatever their kind, all that are no
number alike, moments with offsets by instant, and everything else by kind and content. -/
def sameKey : Datum → Datum → Bool
  | null, null => true
  | text s, text t => s == t
  | bytes a, bytes b => a == b
  | tuple a, tuple b => sameItems a b
  | date a, date b => a == b
  | dateTime a, dateTime b =>
    if a.offset.isSome == b.offset.isSome then instant a == instant b else false
  | property a, property b => a == b
  | curatedProperty a, curatedProperty b => a == b
  | usageExample a, usageExample b => a == b
  | a, b =>
    match fraction? a, fraction? b with
    | some (m, d), some (n, e) => m * (e : Int) == n * (d : Int)
    | none, none =>
      match a, b with
      | float x, float y => x == y || (x.isNaN && y.isNaN)
      | _, _ => false
    | _, _ => false

/-- Whether two lists hold the same keys in the same order. -/
def sameItems : List Datum → List Datum → Bool
  | [], [] => true
  | a :: as, b :: bs => sameKey a b && sameItems as bs
  | _, _ => false

end

/-- The value at a key. -/
def find? (key : Datum) (entries : List (Datum × Datum)) : Option Datum :=
  (entries.find? fun (k, _) => sameKey k key).map Prod.snd

/-- The entries with the value at a key set: in place where the key is known, at the end
otherwise. -/
def put (key value : Datum) : List (Datum × Datum) → List (Datum × Datum)
  | [] => [(key, value)]
  | (k, v) :: rest => if sameKey k key then (k, value) :: rest else (k, v) :: put key value rest

/-- The mapping of a list of entries in which later ones with a known key replace the value. -/
def ofEntries (entries : List (Datum × Datum)) : List (Datum × Datum) :=
  entries.foldl (fun done (key, value) => put key value done) []

/-- The members of a set, each kept where it first appears. -/
def ofMembers (items : List Datum) : List Datum :=
  items.foldl (fun done item => if done.any (sameKey · item) then done else done ++ [item]) []

end Datum

end ComponentDocs
