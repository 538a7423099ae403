/-!
# Tags of plain scalars

A plain scalar has the tag that its text suggests: null, a truth value, a number or a moment, and
text otherwise.
-/

namespace ComponentDocs.Yaml.Tag

/-- What the standard tags start with. -/
def standard : String := "tag:yaml.org,2002:"

def null : String := standard ++ "null"
def boolean : String := standard ++ "bool"
def integer : String := standard ++ "int"
def float : String := standard ++ "float"
def moment : String := standard ++ "timestamp"
def text : String := standard ++ "str"
def binary : String := standard ++ "binary"
def sequence : String := standard ++ "seq"
def mapping : String := standard ++ "map"
def set : String := standard ++ "set"
def orderedMapping : String := standard ++ "omap"
def pairs : String := standard ++ "pairs"
def merge : String := standard ++ "merge"
def value : String := standard ++ "value"
def indicator : String := standard ++ "yaml"

/-- The words for truth values. -/
def booleanWords : List String :=
  ["yes", "Yes", "YES", "no", "No", "NO", "true", "True", "TRUE", "false", "False", "FALSE", "on",
    "On", "ON", "off", "Off", "OFF"]

/-- The words for null. -/
def nullWords : List String := ["", "~", "null", "Null", "NULL"]

/-- The text without a sign at its start. -/
def unsigned : List Char → List Char
  | '+' :: cs => cs
  | '-' :: cs => cs
  | cs => cs

/-- Whether a text starts with a digit and goes on with digits and underscores. -/
def isDigitRun (cs : List Char) : Bool :=
  (cs.head?.map Char.isDigit).getD false && cs.all fun c => c.isDigit || c == '_'

/-- Whether a text is a part of a sexagesimal number: a digit, or two of which the first is at most
five. -/
def isSixtieth (cs : List Char) : Bool :=
  match cs with
  | [a] => a.isDigit
  | [a, b] => '0' ≤ a && a ≤ '5' && b.isDigit
  | _ => false

/-- The pieces of a text between colons. -/
def splitColons (current : List Char) : List Char → List (List Char)
  | [] => [current.reverse]
  | ':' :: rest => current.reverse :: splitColons [] rest
  | c :: rest => splitColons (c :: current) rest

/-- Whether a text is an integer. -/
def isInteger (cs : List Char) : Bool :=
  match unsigned cs with
  | '0' :: 'b' :: rest => !rest.isEmpty && rest.all fun c => c == '0' || c == '1' || c == '_'
  | '0' :: 'x' :: rest =>
    !rest.isEmpty && rest.all fun c =>
      c.isDigit || ('a' ≤ c && c ≤ 'f') || ('A' ≤ c && c ≤ 'F') || c == '_'
  | '0' :: rest => rest.all fun c => ('0' ≤ c && c ≤ '7') || c == '_'
  | cs =>
    match splitColons [] cs with
    | first :: rest => isDigitRun first && rest.all isSixtieth
    | [] => false

/-- Whether a text is an exponent with its sign, or nothing. -/
def isExponent : List Char → Bool
  | [] => true
  | e :: sign :: digits =>
    (e == 'e' || e == 'E') && (sign == '+' || sign == '-') && !digits.isEmpty &&
      digits.all Char.isDigit
  | _ => false

/-- Whether a character is a digit or an underscore. -/
def isDigitOrBar (c : Char) : Bool := c.isDigit || c == '_'

/-- Whether a text is a number with a point, a sexagesimal one with a point, or infinite. -/
def isFloat (cs : List Char) : Bool :=
  let body := unsigned cs
  let whole := body.takeWhile (· != '.')
  match cs, body.dropWhile (· != '.') with
  | _, [] => false
  | cs, _ :: fraction =>
    let tail := fraction.dropWhile isDigitOrBar
    let words := [".inf", ".Inf", ".INF"].map String.toList
    (isDigitRun whole && isExponent tail) ||
      (cs.head? == some '.' && (fraction.head?.map Char.isDigit).getD false && isExponent tail) ||
      (match splitColons [] whole with
        | first :: second :: rest =>
          isDigitRun first && (second :: rest).all isSixtieth && tail.isEmpty
        | _ => false) ||
      words.contains body || ([".nan", ".NaN", ".NAN"].map String.toList).contains cs

/-- The parts of a moment as written. -/
structure MomentParts where
  year : List Char
  month : List Char
  day : List Char
  /-- Hour, minute, second and the digits after the point. -/
  time : Option (List Char × List Char × List Char × List Char) := none
  /-- The letter or sign of the zone, its hours and its minutes. -/
  zone : Option (Char × List Char × List Char) := none

/-- One or two digits at the start, and what follows. -/
def upToTwoDigits? (cs : List Char) : Option (List Char × List Char) :=
  let digits := (cs.take 2).takeWhile Char.isDigit
  if digits.isEmpty then none else some (digits, cs.drop digits.length)

/-- The given number of digits at the start, and what follows. -/
def digits? (n : Nat) (cs : List Char) : Option (List Char × List Char) :=
  let digits := (cs.take n).takeWhile Char.isDigit
  if digits.length == n then some (digits, cs.drop n) else none

/-- What follows a character at the start. -/
def after? (c : Char) : List Char → Option (List Char)
  | d :: rest => if d == c then some rest else none
  | [] => none

/-- The zone of a moment, and what follows it. -/
def zone? (cs : List Char) : Option (Option (Char × List Char × List Char) × List Char) :=
  match cs.dropWhile fun c => c == ' ' || c == '\t' with
  | 'Z' :: rest => some (some ('Z', [], []), rest)
  | sign :: rest =>
    if sign == '+' || sign == '-' then do
      let (hours, rest) ← upToTwoDigits? rest
      match rest with
      | ':' :: rest =>
        let (minutes, rest) ← digits? 2 rest
        return (some (sign, hours, minutes), rest)
      | rest => return (some (sign, hours, []), rest)
    else none
  | [] => if cs.isEmpty then some (none, []) else none

/-- The parts of a date, perhaps with a time of day, if a text is one.  Either may have single
digits. -/
def momentParts? (cs : List Char) : Option MomentParts := do
  let (year, rest) ← digits? 4 cs
  let (month, rest) ← upToTwoDigits? (← after? '-' rest)
  let (day, rest) ← upToTwoDigits? (← after? '-' rest)
  if rest.isEmpty then return { year, month, day }
  let rest ← match rest with
    | 'T' :: rest => some rest
    | 't' :: rest => some rest
    | rest =>
      let blanks := rest.takeWhile fun c => c == ' ' || c == '\t'
      if blanks.isEmpty then none else some (rest.drop blanks.length)
  let (hour, rest) ← upToTwoDigits? rest
  let (minute, rest) ← digits? 2 (← after? ':' rest)
  let (second, rest) ← digits? 2 (← after? ':' rest)
  let (fraction, rest) := match rest with
    | '.' :: rest => (rest.takeWhile Char.isDigit, rest.dropWhile Char.isDigit)
    | rest => ([], rest)
  let (zone, rest) ← zone? rest
  if !rest.isEmpty then none
  return { year, month, day, time := some (hour, minute, second, fraction), zone }

/-- Whether a text is a moment, or a date with two digits in month and day. -/
def isMoment (cs : List Char) : Bool :=
  match momentParts? cs with
  | some parts => parts.time.isSome || (parts.month.length == 2 && parts.day.length == 2)
  | none => false

/-- The tag of a plain scalar. -/
def ofPlain (s : String) : String :=
  let cs := s.toList
  if nullWords.contains s then null
  else if booleanWords.contains s then boolean
  else if isInteger cs then integer
  else if isFloat cs then float
  else if isMoment cs then moment
  else if s = "<<" then merge
  else if s = "=" then value
  else if s = "!" || s = "&" || s = "*" then indicator
  else text

end ComponentDocs.Yaml.Tag
