import ComponentDocs.Datum

/-!
# JSON

Reading JSON texts as data.  Objects keep the order of their keys, a repeated key taking its last
value; whole numbers are exact; the words `NaN`, `Infinity` and `-Infinity` are numbers.
-/

namespace ComponentDocs.Json

/-- What follows the blanks at the start. -/
def skipBlanks (cs : List Char) : List Char :=
  cs.dropWhile fun c => c == ' ' || c == '\t' || c == '\n' || c == '\r'

/-- The value of a hexadecimal digit. -/
def hexValue? (c : Char) : Option Nat :=
  if c.isDigit then some (c.toNat - '0'.toNat)
  else if 'a' ≤ c && c ≤ 'f' then some (c.toNat - 'a'.toNat + 10)
  else if 'A' ≤ c && c ≤ 'F' then some (c.toNat - 'A'.toNat + 10)
  else none

/-- The number of four hexadecimal digits, and what follows them. -/
def fourHex? : List Char → Option (Nat × List Char)
  | a :: b :: c :: d :: rest => do
    let n := ((← hexValue? a) * 16 + (← hexValue? b)) * 256 + (← hexValue? c) * 16 + (← hexValue? d)
    return (n, rest)
  | _ => none

/-- The second half of a surrogate pair, if one follows. -/
def lowSurrogate? (cs : List Char) : Option (Nat × List Char) :=
  match cs with
  | '\\' :: 'u' :: rest =>
    (fourHex? rest).filter fun (n, _) => 0xDC00 ≤ n && n < 0xE000
  | _ => none

/-- The character of an escape by number, given the number and what follows.  Two halves of a
surrogate pair make one character; a half alone makes the replacement character. -/
def numbered (n : Nat) (rest : List Char) : Char × List Char :=
  if 0xD800 ≤ n && n < 0xDC00 then
    match lowSurrogate? rest with
    | some (low, rest) => (Char.ofNat (0x10000 + (n - 0xD800) * 0x400 + (low - 0xDC00)), rest)
    | none => ('\uFFFD', rest)
  else if 0xDC00 ≤ n && n < 0xE000 then ('\uFFFD', rest)
  else (Char.ofNat n, rest)

/-- The character of an escape, given what follows the backslash. -/
def escape? : List Char → Option (Char × List Char)
  | '"' :: rest => some ('"', rest)
  | '\\' :: rest => some ('\\', rest)
  | '/' :: rest => some ('/', rest)
  | 'b' :: rest => some ('\x08', rest)
  | 'f' :: rest => some ('\x0C', rest)
  | 'n' :: rest => some ('\n', rest)
  | 'r' :: rest => some ('\r', rest)
  | 't' :: rest => some ('\t', rest)
  | 'u' :: rest => (fourHex? rest).map fun (n, rest) => numbered n rest
  | _ => none

/-- The characters of a string up to its closing quotation mark, with those before them held last
first. -/
def string? : Nat → List Char → List Char → Option (String × List Char)
  | 0, _, _ => none
  | _, _, [] => none
  | _ + 1, done, '"' :: rest => some (String.ofList done.reverse, rest)
  | fuel + 1, done, '\\' :: rest => do
    let (c, rest) ← escape? rest
    string? fuel (c :: done) rest
  | fuel + 1, done, c :: rest => if c.toNat < 0x20 then none else string? fuel (c :: done) rest

/-- The value of decimal digits. -/
def decimalValue (cs : List Char) : Nat :=
  cs.foldl (fun n c => n * 10 + (c.toNat - '0'.toNat)) 0

/-- The exponent part of a number, if there is one. -/
def exponent? (cs : List Char) : Option (Int × List Char) :=
  match cs with
  | e :: rest =>
    if e == 'e' || e == 'E' then
      let (negative, rest) := match rest with
        | '-' :: rest => (true, rest)
        | '+' :: rest => (false, rest)
        | rest => (false, rest)
      let digits := rest.takeWhile Char.isDigit
      if digits.isEmpty then none
      else
        let n : Int := decimalValue digits
        some (if negative then -n else n, rest.drop digits.length)
    else none
  | [] => none

/-- The fraction part of a number, if there is one. -/
def fractionDigits (cs : List Char) : List Char :=
  match cs with
  | '.' :: rest => rest.takeWhile Char.isDigit
  | _ => []

/-- A number without its sign. -/
def number? (negative : Bool) (cs : List Char) : Option (Datum × List Char) :=
  let run := cs.takeWhile Char.isDigit
  let whole := if run.head? == some '0' then ['0'] else run
  if whole.isEmpty then none
  else
    let rest := cs.drop whole.length
    let fraction := fractionDigits rest
    let rest := if fraction.isEmpty then rest else rest.drop (fraction.length + 1)
    match exponent? rest, fraction with
    | none, [] =>
      let n : Int := decimalValue whole
      some (.int (if negative then -n else n), rest)
    | found, _ =>
      let (e, rest) := found.getD (0, rest)
      let x := Decimal.nearest (decimalValue (whole ++ fraction)) (e - Int.ofNat fraction.length)
      some (.float (if negative then -x else x), rest)

/-- A value that is one word. -/
def word? (cs : List Char) : Option (Datum × List Char) :=
  let words : List (String × Datum) :=
    [("null", .null), ("true", .bool true), ("false", .bool false), ("NaN", .float (0.0 / 0.0)),
      ("Infinity", .float (1.0 / 0.0)), ("-Infinity", .float (-1.0 / 0.0))]
  (words.find? fun (word, _) => word.toList.isPrefixOf cs).map fun (word, value) =>
    (value, cs.drop word.length)

mutual

/-- The value at the start of a text without leading blanks, and what follows it. -/
def value? : Nat → List Char → Option (Datum × List Char)
  | 0, _ => none
  | fuel + 1, cs =>
    match cs with
    | '"' :: rest => (string? (rest.length + 1) [] rest).map fun (s, rest) => (.text s, rest)
    | '[' :: rest =>
      match skipBlanks rest with
      | ']' :: rest => some (.list [], rest)
      | rest => (items? fuel rest).map fun (items, rest) => (.list items, rest)
    | '\x7b' :: rest =>
      match skipBlanks rest with
      | '\x7d' :: rest => some (.mapping [], rest)
      | rest => (entries? fuel rest).map fun (es, rest) => (.mapping (Datum.ofEntries es), rest)
    | _ =>
      match word? cs, cs with
      | some found, _ => some found
      | none, '-' :: rest => number? true rest
      | none, _ => number? false cs

/-- The values of an array from one of them on, through its closing bracket. -/
def items? : Nat → List Char → Option (List Datum × List Char)
  | 0, _ => none
  | fuel + 1, cs => do
    let (item, rest) ← value? fuel cs
    match skipBlanks rest with
    | ',' :: rest =>
      let (items, rest) ← items? fuel (skipBlanks rest)
      return (item :: items, rest)
    | ']' :: rest => return ([item], rest)
    | _ => none

/-- The entries of an object from one of them on, through its closing brace. -/
def entries? : Nat → List Char → Option (List (Datum × Datum) × List Char)
  | 0, _ => none
  | fuel + 1, cs => do
    match cs with
    | '"' :: rest =>
      let (key, rest) ← string? (rest.length + 1) [] rest
      match skipBlanks rest with
      | ':' :: rest =>
        let (value, rest) ← value? fuel (skipBlanks rest)
        match skipBlanks rest with
        | ',' :: rest =>
          let (entries, rest) ← entries? fuel (skipBlanks rest)
          return ((.text key, value) :: entries, rest)
        | '\x7d' :: rest => return ([(.text key, value)], rest)
        | _ => none
      | _ => none
    | _ => none

end

/-- Reads a JSON text.  The nesting of a text is at most its length, which bounds the fuel. -/
def parse? (cs : List Char) : Option Datum := do
  let (value, rest) ← value? (2 * cs.length + 2) (skipBlanks cs)
  if (skipBlanks rest).isEmpty then return value else none

end ComponentDocs.Json
