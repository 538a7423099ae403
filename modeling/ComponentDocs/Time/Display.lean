import ComponentDocs.Time.Calendar

/-!
# Moments in messages

Dates, moments and spans of time as messages show them, and the wording of calendar errors.
-/

namespace ComponentDocs

namespace Datum

/-- Texts joined by a comma and a blank. -/
def commaJoined (items : List String) : String := ", ".intercalate items

/-- A date in messages. -/
def shownDate (d : Date) : String :=
  "datetime.date(" ++ commaJoined [toString d.year, toString d.month, toString d.day] ++ ")"

/-- A span of time in messages: days, seconds and microseconds, the latter two not negative. -/
def shownSpan (microseconds : Int) : String :=
  let days := microseconds.fdiv Calendar.microsecondsPerDay
  let rest := (microseconds.fmod Calendar.microsecondsPerDay).toNat
  let part (name : String) (n : Int) : List String :=
    if n == 0 then [] else [name ++ "=" ++ toString n]
  let parts := part "days" days ++ part "seconds" (rest / 1000000 : Nat) ++
    part "microseconds" (rest % 1000000 : Nat)
  "datetime.timedelta(" ++ (if parts.isEmpty then "0" else commaJoined parts) ++ ")"

/-- An offset from universal time in messages. -/
def shownOffset (microseconds : Int) : String :=
  if microseconds == 0 then "datetime.timezone.utc"
  else "datetime.timezone(" ++ shownSpan microseconds ++ ")"

/-- A moment in messages; seconds and microseconds are left out where they are zero. -/
def shownDateTime (t : DateTime) : String :=
  let fraction := if t.microsecond == 0 then [] else [toString t.microsecond]
  let seconds := if t.second == 0 && t.microsecond == 0 then [] else [toString t.second]
  let zone := match t.offset with
    | some o => ["tzinfo=" ++ shownOffset o]
    | none => []
  "datetime.datetime(" ++
    commaJoined ([toString t.date.year, toString t.date.month, toString t.date.day,
      toString t.hour, toString t.minute] ++ seconds ++ fraction ++ zone) ++ ")"

end Datum

/-- The wording of a calendar error. -/
def CalendarError.message : CalendarError → String
  | .year n => "year " ++ toString n ++ " is out of range"
  | .month => "month must be in 1..12"
  | .day => "day is out of range for month"
  | .hour => "hour must be in 0..23"
  | .minute => "minute must be in 0..59"
  | .second => "second must be in 0..59"
  | .offset span =>
    "offset must be a timedelta strictly between -timedelta(hours=24) and timedelta(hours=24), " ++
      "not " ++ Datum.shownSpan span ++ "."

end ComponentDocs
