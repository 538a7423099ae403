import ComponentDocs.Datum
import ComponentDocs.Decimal.Rounded

/-!
# Message templates

A template is a text with conversions, each of which starts with a percent sign and stands for a
value: an optional key in parentheses, flags, a width, a precision and a letter.  Two percent signs
in a row stand for one.  `Template.pieces` reads a template, `Template.fill` puts the values in.
-/

namespace ComponentDocs

/-- A width or a precision: not stated, a number, or the next value. -/
inductive Measure where
  | unstated
  | stated (n : Nat)
  | next
  deriving DecidableEq, Repr

/-- The key of a conversion. -/
inductive ConversionKey where
  | absent
  | named (name : String)
  /-- The parenthesis is never closed. -/
  | unclosed
  deriving DecidableEq, Repr

/-- A conversion; its letter is missing where the template ends too early, and otherwise comes with
its place in the template. -/
structure Conversion where
  key : ConversionKey
  flags : List Char
  width : Measure
  precision : Measure
  letter : Option (Char × Nat)
  deriving DecidableEq, Repr

/-- A piece of a template. -/
inductive Piece where
  | literal (c : Char)
  | conversion (c : Conversion)
  deriving DecidableEq, Repr

/-- Why a template could not be filled. -/
inductive TemplateProblem where
  | tooFewValues
  | tooManyValues
  | incomplete
  | incompleteKey
  | widthTooBig
  | precisionTooBig
  | measureNotInteger
  | needsMapping
  | missingKey (key : String)
  | unsupported (letter : Char) (place : Nat)
  /-- A letter for numbers meets a value of another kind. -/
  | notNumber (letter : Char) (kind : String)
  | notInteger (letter : Char) (kind : String)
  | notReal (kind : String)
  | notCharacter
  | noSuchCharacter
  | infinite
  | notANumber
  | tooLarge
  deriving DecidableEq, Repr

/-- The message of a problem. -/
def TemplateProblem.message : TemplateProblem → String
  | .tooFewValues => "not enough arguments for format string"
  | .tooManyValues => "not all arguments converted during string formatting"
  | .incomplete => "incomplete format"
  | .incompleteKey => "incomplete format key"
  | .widthTooBig => "width too big"
  | .precisionTooBig => "precision too big"
  | .measureNotInteger => "* wants int"
  | .needsMapping => "format requires a mapping"
  | .missingKey key => Text.quoted key
  | .unsupported letter place =>
    let shown := if 31 ≤ letter.toNat && letter.toNat < 127 then letter else '?'
    "unsupported format character '" ++ shown.toString ++ "' (0x" ++
      String.ofList (Nat.toDigits 16 letter.toNat) ++ ") at index " ++ toString place
  | .notNumber letter kind =>
    "%" ++ letter.toString ++ " format: a real number is required, not " ++ kind
  | .notInteger letter kind =>
    "%" ++ letter.toString ++ " format: an integer is required, not " ++ kind
  | .notReal kind => "must be real number, not " ++ kind
  | .notCharacter => "%c requires int or char"
  | .noSuchCharacter => "%c arg not in range(0x110000)"
  | .infinite => "cannot convert float infinity to integer"
  | .notANumber => "cannot convert float NaN to integer"
  | .tooLarge => "int too large to convert to float"

/-- The values for a template: a row of values, or a mapping whose entries are named by keys. -/
inductive TemplateValues where
  | row (values : List Datum)
  | entries (entries : List (Datum × Datum))

namespace Template

/-! ## Reading -/

/-- The characters up to the parenthesis that closes the one before them, and the rest. -/
def closeKey (depth : Nat) : List Char → Option (List Char × List Char)
  | [] => none
  | c :: rest =>
    if c == ')' && depth == 0 then some ([], rest)
    else
      let depth := if c == '(' then depth + 1 else if c == ')' then depth - 1 else depth
      (closeKey depth rest).map fun (key, rest) => (c :: key, rest)

/-- The key at the start of a conversion, and the rest. -/
def readKey : List Char → ConversionKey × List Char
  | '(' :: rest =>
    match closeKey 0 rest with
    | some (key, rest) => (.named (String.ofList key), rest)
    | none => (.unclosed, [])
  | cs => (.absent, cs)

/-- The number that digits write. -/
def number (digits : List Char) : Nat := digits.foldl (fun n c => n * 10 + (c.toNat - '0'.toNat)) 0

/-- A star or a number at the start, and the rest. -/
def readMeasure : List Char → Measure × List Char
  | '*' :: rest => (.next, rest)
  | cs =>
    match cs.takeWhile Char.isDigit with
    | [] => (.unstated, cs)
    | digits => (.stated (number digits), cs.dropWhile Char.isDigit)

/-- The precision at the start, a point without a number standing for zero, and the rest. -/
def readPrecision : List Char → Measure × List Char
  | '.' :: rest =>
    match readMeasure rest with
    | (.unstated, rest) => (.stated 0, rest)
    | found => found
  | cs => (.unstated, cs)

/-- The rest after a mark of length, which means nothing. -/
def skipLength : List Char → List Char
  | c :: rest => if c == 'h' || c == 'l' || c == 'L' then rest else c :: rest
  | [] => []

/-- The flags of conversions. -/
def isFlag (c : Char) : Bool := ['-', '+', ' ', '#', '0'].contains c

/-- The conversion after a percent sign, and the rest; `length` is that of the template. -/
def readConversion (length : Nat) (cs : List Char) : Conversion × List Char :=
  let (key, cs) := readKey cs
  let flags := cs.takeWhile isFlag
  let (width, cs) := readMeasure (cs.dropWhile isFlag)
  let (precision, cs) := readPrecision cs
  match skipLength cs with
  | c :: rest => (⟨key, flags, width, precision, some (c, length - rest.length - 1)⟩, rest)
  | [] => (⟨key, flags, width, precision, none⟩, [])

/-- The pieces of what is left of a template of the given length. -/
def piecesFrom (length : Nat) : Nat → List Char → List Piece
  | 0, _ => []
  | _ + 1, [] => []
  | fuel + 1, '%' :: '%' :: cs => .literal '%' :: piecesFrom length fuel cs
  | fuel + 1, '%' :: cs =>
    let (c, rest) := readConversion length cs
    .conversion c :: piecesFrom length fuel rest
  | fuel + 1, c :: cs => .literal c :: piecesFrom length fuel cs

/-- The pieces of a template. -/
def pieces (template : String) : List Piece :=
  let cs := template.toList
  piecesFrom cs.length cs.length cs

/-! ## Values -/

/-- The values that are left while a template is filled, and the entries that keys name. -/
structure Supply where
  left : List Datum
  named : Option (List (Datum × Datum))

/-- The values at the start; without a key a mapping is a value itself. -/
def Supply.start : TemplateValues → Supply
  | .row values => ⟨values, none⟩
  | .entries entries => ⟨[.mapping entries], some entries⟩

/-- Filling takes values one by one and can fail. -/
abbrev Filling := StateT Supply (Except TemplateProblem)

/-- The next value. -/
def nextValue : Filling Datum := do
  let supply ← get
  match supply.left with
  | value :: left =>
    set { supply with left }
    return value
  | [] => throw .tooFewValues

/-- Makes the value of a key the next one. -/
def useKey : ConversionKey → Filling Unit
  | .absent => return
  | .unclosed => do
    if (← get).named.isNone then throw .needsMapping
    throw .incompleteKey
  | .named key => do
    let supply ← get
    match supply.named with
    | none => throw .needsMapping
    | some entries =>
      match Datum.find? (.text key) entries with
      | some value => set { supply with left := [value] }
      | none => throw (.missingKey key)

/-- The integer that a value is, a truth value counting as one or zero. -/
def integer? : Datum → Option Int
  | .int n => some n
  | .bool b => some (if b then 1 else 0)
  | _ => none

/-- The greatest width. -/
def widthLimit : Nat := Decimal.twoTo 63 - 1

/-- The greatest precision. -/
def precisionLimit : Nat := Decimal.twoTo 31 - 1

/-- The number that a width or a precision stands for. -/
def measure (limit : Nat) (tooBig : TemplateProblem) : Measure → Filling (Option Int)
  | .unstated => return none
  | .stated n => if limit < n then throw tooBig else return some n
  | .next => do
    match integer? (← nextValue) with
    | some n => return some n
    | none => throw .measureNotInteger

/-! ## Layout -/

/-- A written value before it is fitted into its width: its sign, the mark of its base, and the
rest. -/
structure Written where
  sign : List Char := []
  base : List Char := []
  body : List Char

/-- The sign that a number shows. -/
def signOf (flags : List Char) (negative : Bool) : List Char :=
  if negative then ['-'] else if flags.contains '+' then ['+']
  else if flags.contains ' ' then [' '] else []

/-- A written value in its width: on the left if asked for, and numbers with zeros if asked for. -/
def Written.fit (w : Written) (width : Nat) (left zeros : Bool) : List Char :=
  let missing := width - (w.sign.length + w.base.length + w.body.length)
  let fill (c : Char) := List.replicate missing c
  if left then w.sign ++ w.base ++ w.body ++ fill ' '
  else if zeros then w.sign ++ w.base ++ fill '0' ++ w.body
  else fill ' ' ++ w.sign ++ w.base ++ w.body

/-! ## Letters -/

/-- The text with everything beyond ASCII escaped. -/
def asciiText (s : String) : List Char :=
  s.toList.flatMap fun c =>
    let n := c.toNat
    if n < 0x80 then [c]
    else if n < 0x100 then '\\' :: 'x' :: Text.hexDigits 2 n
    else if n < 0x10000 then '\\' :: 'u' :: Text.hexDigits 4 n
    else '\\' :: 'U' :: Text.hexDigits 8 n

/-- A double without its fraction. -/
def truncated (x : Float) : Except TemplateProblem Int :=
  match Decimal.Parts.ofFloat x with
  | .nan => .error .notANumber
  | .infinite _ => .error .infinite
  | .finite negative m q =>
    let (num, den) := Decimal.powerOfTwo q
    let n := Int.ofNat (m * num / den)
    .ok (if negative then -n else n)

/-- The integer for a letter; the decimal ones drop the fraction of a number. -/
def integerFor (letter : Char) (d : Datum) : Except TemplateProblem Int :=
  match integer? d, d with
  | some n, _ => .ok n
  | none, .float x =>
    if ['o', 'x', 'X'].contains letter then .error (.notInteger letter d.typeName)
    else truncated x
  | none, _ =>
    if ['o', 'x', 'X'].contains letter then .error (.notInteger letter d.typeName)
    else .error (.notNumber letter d.typeName)

/-- An integer in the base of its letter. -/
def integerText (letter : Char) (flags : List Char) (precision : Nat) (n : Int) : Written :=
  let base := if letter == 'o' then 8 else if letter == 'x' || letter == 'X' then 16 else 10
  let digits := Decimal.padZeros precision (Nat.toDigits base n.natAbs)
  { sign := signOf flags (n < 0)
    base := if base != 10 && flags.contains '#' then ['0', letter] else []
    body := if letter == 'X' then digits.map Char.toUpper else digits }

/-- The double for a letter. -/
def doubleFor (d : Datum) : Except TemplateProblem Float :=
  match integer? d, d with
  | some n, _ =>
    let x := Decimal.nearest n.natAbs 0
    if x.isInf then .error .tooLarge else .ok (if n < 0 then -x else x)
  | none, .float x => .ok x
  | none, _ => .error (.notReal d.typeName)

/-- A double in the notation of its letter. -/
def doubleText (letter : Char) (flags : List Char) (precision : Nat) (x : Float) : Written :=
  let keep := flags.contains '#'
  let cased (s : String) := if letter.isUpper then s.toList.map Char.toUpper else s.toList
  match Decimal.Parts.ofFloat x with
  | .nan => { sign := signOf flags false, body := cased "nan" }
  | .infinite negative => { sign := signOf flags negative, body := cased "inf" }
  | .finite negative m q =>
    let (num, den) := Decimal.powerOfTwo q
    let text := match letter.toLower with
      | 'e' => Decimal.scientificText (m * num) den precision keep
      | 'f' => Decimal.fixedText (m * num) den precision keep
      | _ => Decimal.generalText (m * num) den (max precision 1) keep
    { sign := signOf flags negative, body := cased text }

/-- The character of a value. -/
def characterFor (d : Datum) : Except TemplateProblem Char :=
  match integer? d, d with
  | some n, _ =>
    if 0 ≤ n && n < 0x110000 then .ok (Char.ofNat n.toNat) else .error .noSuchCharacter
  | none, .text s =>
    match s.toList with
    | [c] => .ok c
    | _ => .error .notCharacter
  | none, _ => .error .notCharacter

/-- The digits after the point that doubles have unless a precision is stated. -/
def usualPrecision : Nat := 6

/-- A value as a conversion writes it; the precision is not negative. -/
def written (c : Char) (place : Nat) (flags : List Char) (precision : Option Nat) (d : Datum) :
    Except TemplateProblem Written :=
  let cut (cs : List Char) : Written := { body := (precision.map cs.take).getD cs }
  if c == 's' then .ok (cut d.display.toList)
  else if c == 'r' then .ok (cut d.shown.toList)
  else if c == 'a' then .ok (cut (asciiText d.shown))
  else if c == 'c' then do return { body := [← characterFor d] }
  else if ['d', 'i', 'u', 'o', 'x', 'X'].contains c then do
    return integerText c flags (precision.getD 0) (← integerFor c d)
  else if ['e', 'E', 'f', 'F', 'g', 'G'].contains c then do
    return doubleText c flags (precision.getD usualPrecision) (← doubleFor d)
  else .error (.unsupported c place)

/-- Whether a letter writes numbers. -/
def isNumeric (c : Char) : Bool :=
  ['d', 'i', 'u', 'o', 'x', 'X', 'e', 'E', 'f', 'F', 'g', 'G'].contains c

/-! ## Filling -/

/-- What a conversion writes.  A negative width stands for one on the left. -/
def convert (c : Conversion) : Filling (List Char) := do
  useKey c.key
  let width ← measure widthLimit .widthTooBig c.width
  let precision ← measure precisionLimit .precisionTooBig c.precision
  match c.letter with
  | none => throw .incomplete
  | some (letter, place) =>
    let value ← nextValue
    let w ← (written letter place c.flags (precision.map Int.toNat) value : Except _ _)
    let left := c.flags.contains '-' || (width.any fun n => n < 0)
    return w.fit (width.getD 0).natAbs left (isNumeric letter && c.flags.contains '0')

/-- What a piece writes. -/
def fillPiece : Piece → Filling (List Char)
  | .literal c => return [c]
  | .conversion c => convert c

/-- The template with the values put in; a row must be used up. -/
def fill (template : String) (values : TemplateValues) : Except TemplateProblem String := do
  let (parts, supply) ← ((pieces template).mapM fillPiece).run (Supply.start values)
  if !supply.left.isEmpty && supply.named.isNone then throw .tooManyValues
  return String.ofList parts.flatten

/-- The template with the values put in; without values it is taken as it is. -/
def message (template : String) (values : List Datum) : Except TemplateProblem String :=
  if values.isEmpty then .ok template else fill template (.row values)

end Template

end ComponentDocs
