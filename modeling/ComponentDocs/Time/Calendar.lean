/-!
# Calendar

The Gregorian calendar, extended to the years 1 to 9999: which dates exist, and the numbering of
days from the first of January of the year 1.  Moments carry a time of day to the microsecond
and, optionally, their distance from universal time.
-/

namespace ComponentDocs

/-- A calendar date. -/
structure Date where
  year : Nat
  month : Nat
  day : Nat
  deriving DecidableEq, Repr

/-- A date and a time of day; the offset from universal time is in microseconds. -/
structure DateTime where
  date : Date
  hour : Nat := 0
  minute : Nat := 0
  second : Nat := 0
  microsecond : Nat := 0
  offset : Option Int := none
  deriving DecidableEq, Repr

/-- Why numbers do not make a date or a moment. -/
inductive CalendarError where
  | year (n : Int)
  | month
  | day
  | hour
  | minute
  | second
  | offset (microseconds : Int)
  deriving DecidableEq, Repr

namespace Calendar

/-- Whether the year has a 29th of February. -/
def isLeap (year : Nat) : Bool := year % 4 == 0 && (year % 100 != 0 || year % 400 == 0)

/-- The number of days of a month. -/
def daysInMonth (year month : Nat) : Nat :=
  if month == 2 then if isLeap year then 29 else 28
  else if month == 4 || month == 6 || month == 9 || month == 11 then 30
  else 31

/-- The number of days before the first of January of a year. -/
def daysBeforeYear (year : Nat) : Nat :=
  let y := year - 1
  y * 365 + y / 4 - y / 100 + y / 400

/-- The number of days of a year before the first of a month. -/
def daysBeforeMonth (year month : Nat) : Nat :=
  (List.range (month - 1)).foldl (fun days m => days + daysInMonth year (m + 1)) 0

/-- The number of a date: the first of January of the year 1 has the number 1. -/
def ordinal (d : Date) : Nat := daysBeforeYear d.year + daysBeforeMonth d.year d.month + d.day

/-- The month and day with the given number of days of the year before them, looked for from a
month on. -/
def monthAndDay (year : Nat) : Nat → Nat → Nat → Nat × Nat
  | 0, month, rest => (month, rest + 1)
  | fuel + 1, month, rest =>
    let n := daysInMonth year month
    if rest < n then (month, rest + 1) else monthAndDay year fuel (month + 1) (rest - n)

/-- The date with the given number. -/
def ofOrdinal (n : Nat) : Date :=
  let days := n - 1
  -- four hundred years have 146097 days, so the guess is at most one year too late
  let guess := days * 400 / 146097 + 1
  let year := if daysBeforeYear guess ≤ days then
      if daysBeforeYear (guess + 1) ≤ days then guess + 1 else guess
    else guess - 1
  let (month, day) := monthAndDay year 12 1 (days - daysBeforeYear year)
  ⟨year, month, day⟩

/-- The year of the day with any number, counted on in both directions; the calendar repeats after
146097 days, which are four hundred years. -/
def yearOf (number : Int) : Int :=
  let cycles := (number - 1).fdiv 146097
  (ofOrdinal (number - cycles * 146097).toNat).year + 400 * cycles

/-- A date, if it exists. -/
def date? (year month day : Nat) : Except CalendarError Date :=
  if year < 1 || 9999 < year then .error (.year year)
  else if month < 1 || 12 < month then .error .month
  else if day < 1 || daysInMonth year month < day then .error .day
  else .ok ⟨year, month, day⟩

/-- The number of microseconds of a day. -/
def microsecondsPerDay : Int := 86400000000

/-- Checks the time of day of a moment whose date exists; the offset must be under a day. -/
def checkTime (t : DateTime) : Except CalendarError DateTime :=
  if 23 < t.hour then .error .hour
  else if 59 < t.minute then .error .minute
  else if 59 < t.second then .error .second
  else
    match t.offset with
    | some o =>
      if -microsecondsPerDay < o && o < microsecondsPerDay then .ok t else .error (.offset o)
    | none => .ok t

/-- The moment in universal time that lies the given number of microseconds after the start of
the year 1970, if its year is in range. -/
def ofUnixMicroseconds (n : Int) : Except CalendarError DateTime :=
  let days := n.fdiv microsecondsPerDay
  let rest := (n.fmod microsecondsPerDay).toNat
  let number := days + 719163
  if number < 1 || 3652059 < number then .error (.year (yearOf number))
  else
    .ok {
      date := ofOrdinal number.toNat
      hour := rest / 3600000000
      minute := rest / 60000000 % 60
      second := rest / 1000000 % 60
      microsecond := rest % 1000000
      offset := some 0 }

end Calendar

end ComponentDocs
