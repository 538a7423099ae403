import ComponentDocs.Time.Calendar

/-!
# Dates as text

Dates and moments in the notation of ISO 8601: how they are written, and which of its forms are
read.  A moment is read from a calendar or week date, with or without hyphens, optionally
followed by any one separator, a time with or without colons, and an offset.
-/

namespace ComponentDocs

/-- A number in decimal with at least the given number of digits. -/
def padded (width n : Nat) : String :=
  let digits := Nat.repr n
  String.ofList (List.replicate (width - digits.length) '0') ++ digits

/-- A date as `YYYY-MM-DD`. -/
def Date.isoText (d : Date) : String :=
  padded 4 d.year ++ "-" ++ padded 2 d.month ++ "-" ++ padded 2 d.day

/-- An offset as `±HH:MM`, followed by seconds and microseconds where there are any. -/
def offsetText (microseconds : Int) : String :=
  let n := microseconds.natAbs
  let seconds := n / 1000000
  let fraction := n % 1000000
  let sign := if microseconds < 0 then "-" else "+"
  sign ++ padded 2 (seconds / 3600) ++ ":" ++ padded 2 (seconds / 60 % 60) ++
    (if seconds % 60 == 0 && fraction == 0 then "" else ":" ++ padded 2 (seconds % 60)) ++
    (if fraction == 0 then "" else "." ++ padded 6 fraction)

/-- A moment with the given separator between date and time; a fraction is written only if it is
not zero, an offset only if there is one. -/
def DateTime.isoTextWith (separator : String) (t : DateTime) : String :=
  t.date.isoText ++ separator ++
    padded 2 t.hour ++ ":" ++ padded 2 t.minute ++ ":" ++ padded 2 t.second ++
    (if t.microsecond == 0 then "" else "." ++ padded 6 t.microsecond) ++
    (match t.offset with
     | some o => offsetText o
     | none => "")

/-- A moment in the standard's notation. -/
def DateTime.isoText (t : DateTime) : String := t.isoTextWith "T"

namespace IsoText

/-- The number written by ASCII digits, if there is nothing else. -/
def digits? (cs : List Char) : Option Nat :=
  if !cs.isEmpty && cs.all Char.isDigit then
    some (cs.foldl (fun n c => n * 10 + (c.toNat - '0'.toNat)) 0)
  else none

/-- The number in the first `width` characters, and what follows. -/
def number? (width : Nat) (cs : List Char) : Option (Nat × List Char) :=
  if cs.length < width then none
  else (digits? (cs.take width)).map (·, cs.drop width)

/-- The length of the date part of a text of more than seven characters. -/
def dateLength? (cs : List Char) : Option Nat :=
  let char (i : Nat) : Char := cs.getD i ' '
  if cs.length == 7 then some 7
  else if char 4 == '-' then
    if char 5 == 'W' then
      if cs.length < 8 then none
      else if 8 < cs.length && char 8 == '-' then
        if cs.length == 9 then none
        else if 10 < cs.length && (char 10).isDigit then some 8 else some 10
      else some 8
    else some 10
  else if char 4 == 'W' then
    let run := 7 + ((cs.drop 7).takeWhile Char.isDigit).length
    if run < 9 then some run else if run % 2 == 0 then some 7 else some 8
  else some 8

/-- The date of a day of a week: the first week of a year holds its first Thursday. -/
def ofWeek? (year week day : Nat) : Option Date :=
  if year < 1 || 9999 < year then none
  else
    let jan1 := Calendar.ordinal ⟨year, 1, 1⟩
    -- days since Monday
    let weekday := (jan1 + 6) % 7
    let monday : Int := if weekday ≤ 3 then jan1 - weekday else jan1 + 7 - weekday
    let longYear := weekday == 3 || (weekday == 2 && Calendar.isLeap year)
    if week < 1 || 53 < week || (week == 53 && !longYear) then none
    else if day < 1 || 7 < day then none
    else
      let number := monday + (week - 1) * 7 + (day - 1)
      if number < 1 || 3652059 < number then none else some (Calendar.ofOrdinal number.toNat)

/-- Reads a date part. -/
def date? (cs : List Char) : Option Date := do
  let (year, rest) ← number? 4 cs
  let hyphens := rest.head? == some '-'
  let rest := if hyphens then rest.drop 1 else rest
  match rest with
  | 'W' :: rest =>
    let (week, rest) ← number? 2 rest
    if rest.isEmpty then ofWeek? year week 1
    else if (rest.head? == some '-') != hyphens then none
    else
      let (day, rest) ← number? 1 (if hyphens then rest.drop 1 else rest)
      if rest.isEmpty then ofWeek? year week day else none
  | _ =>
    let (month, rest) ← number? 2 rest
    if (rest.head? == some '-') != hyphens then none
    else
      let (day, rest) ← number? 2 (if hyphens then rest.drop 1 else rest)
      if rest.isEmpty then (Calendar.date? year month day).toOption else none

/-- A time of day as hours, minutes, seconds and microseconds. -/
structure Clock where
  hour : Nat := 0
  minute : Nat := 0
  second : Nat := 0
  microsecond : Nat := 0

/-- Reads the digits of a fraction; those after the sixth do not count.  The flag says whether
nothing follows them. -/
def fraction? (clock : Clock) (cs : List Char) : Option (Clock × Bool) :=
  let first := cs.take 6
  (digits? first).map fun n =>
    ({ clock with microsecond := n * Nat.pow 10 (6 - first.length) },
      ((cs.drop 6).dropWhile Char.isDigit).isEmpty)

/-- What a part of a time of day leads to, given what follows it: the end, one last ASCII
character that belongs to no part, a fraction, or the next part. -/
def afterPart (colons : Bool) (clock : Clock)
    (next : List Char → Option (Clock × Bool)) : List Char → Option (Clock × Bool)
  | [] => some (clock, true)
  | [c] => if c.toNat < 0x80 then some (clock, false) else none
  | c :: rest =>
    if colons && c == ':' then next rest
    else if c == '.' || c == ',' then fraction? clock rest
    else if colons then none
    else next (c :: rest)

/-- Reads a time of day: hours, minutes, seconds and a fraction, each but the first optional, with
colons everywhere or nowhere.  The flag says whether the whole text was used. -/
def clock? (cs : List Char) : Option (Clock × Bool) := do
  let (hour, rest) ← number? 2 cs
  let colons := rest.head? == some ':'
  afterPart colons { hour } (fun rest => do
    let (minute, rest) ← number? 2 rest
    afterPart colons { hour, minute } (fun rest => do
      let (second, rest) ← number? 2 rest
      afterPart colons { hour, minute, second } (fraction? { hour, minute, second }) rest) rest) rest

/-- Reads a time of day that must use the whole text. -/
def wholeClock? (cs : List Char) : Option Clock :=
  match clock? cs with
  | some (clock, true) => some clock
  | _ => none

/-- Reads an offset, given its sign. -/
def offset? (negative : Bool) (cs : List Char) : Option Int := do
  let c ← wholeClock? cs
  let n : Int := (((c.hour * 60 + c.minute) * 60 + c.second) * 1000000 + c.microsecond : Nat)
  return if negative then -n else n

/-- Reads a time of day with an optional offset.  What the time leaves over in front of an offset
is passed over. -/
def time? (cs : List Char) : Option (Clock × Option Int) :=
  let isMark (c : Char) : Bool := c == '+' || c == '-' || c == 'Z'
  let before := cs.takeWhile (!isMark ·)
  match cs.drop before.length with
  | [] => (wholeClock? before).map (·, none)
  | ['Z'] => (clock? before).map fun (clock, _) => (clock, some 0)
  | 'Z' :: _ => none
  | sign :: rest => do
    let (clock, _) ← clock? before
    let offset ← offset? (sign == '-') rest
    return (clock, some offset)

/-- Reads a moment.  The character between date and time may be any. -/
def dateTime? (s : String) : Option DateTime := do
  let cs := s.toList
  if cs.length < 7 then none
  else
    let length ← dateLength? cs
    let date ← date? (cs.take length)
    match cs.drop length with
    | [] => return { date }
    | _ :: rest =>
      let (clock, offset) ← time? rest
      (Calendar.checkTime {
        date, offset
        hour := clock.hour, minute := clock.minute
        second := clock.second, microsecond := clock.microsecond }).toOption

end IsoText

end ComponentDocs
