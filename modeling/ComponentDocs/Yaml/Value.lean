import ComponentDocs.Datum
import ComponentDocs.Text.Blank
import ComponentDocs.Text.Casing
import ComponentDocs.Yaml.Base64
import ComponentDocs.Yaml.Node

/-!
# Values of YAML nodes

The data that a node stands for.  Entries under a merge key come in front of the entries of their
mapping and give way to them.  A document is checked before its value is taken: first its root,
then what stands in the root, and so on by levels, and the first fault found is the one reported.
-/

namespace ComponentDocs.Yaml

/-! ## Numbers -/

/-- The value of a digit in bases up to sixteen. -/
def digitValue? (base : Nat) (c : Char) : Option Nat := (Json.hexValue? c).filter (· < base)

/-- The letters that mark a base. -/
def baseMark (base : Nat) : List Char :=
  match base with
  | 2 => ['b', 'B']
  | 8 => ['o', 'O']
  | 16 => ['x', 'X']
  | _ => []

/-- Digits after the mark of their base, if they have it. -/
def withoutMark (base : Nat) : List Char → List Char
  | '0' :: c :: rest => if (baseMark base).contains c then rest else '0' :: c :: rest
  | cs => cs

/-- An integer in the given base, with blanks around it and a sign. -/
def integerIn (base : Nat) (cs : List Char) : Except Problem Int :=
  let trimmed := Text.trim cs
  let digits := withoutMark base (Tag.unsigned trimmed)
  let read := digits.foldlM (fun n c => (digitValue? base c).map fun d => n * base + d) 0
  match digits, read with
  | _ :: _, some n => .ok (if trimmed.head? == some '-' then -(n : Int) else n)
  | _, _ => .error (.notInteger base (String.ofList cs))

/-- The number that parts in base sixty make. -/
def sexagesimal (parts : List Int) : Int := parts.foldl (fun n part => n * 60 + part) 0

/-- The value of an integer scalar. -/
def integerValue (text : String) : Except Problem Int := do
  let cs := text.toList.filter (· != '_')
  let negative := cs.head? == some '-'
  let body := Tag.unsigned cs
  let magnitude ← match body with
    | [] => throw .emptyNumber
    | ['0'] => pure 0
    | '0' :: 'b' :: rest => integerIn 2 rest
    | '0' :: 'x' :: rest => integerIn 16 rest
    | '0' :: _ => integerIn 8 body
    | _ =>
      if body.contains ':' then
        pure (sexagesimal (← (Tag.splitColons [] body).mapM (integerIn 10)))
      else integerIn 10 body
  return if negative then -magnitude else magnitude

/-- A number with a point or an exponent, without sign. -/
def unsignedFloat? (cs : List Char) : Option Float :=
  let whole := cs.takeWhile Char.isDigit
  let rest := cs.drop whole.length
  let (fraction, rest) := match rest with
    | '.' :: rest => (rest.takeWhile Char.isDigit, rest.dropWhile Char.isDigit)
    | rest => ([], rest)
  if whole.isEmpty && fraction.isEmpty then none
  else
    let scale : Int := -(fraction.length : Nat)
    let mantissa := Json.decimalValue (whole ++ fraction)
    if rest.isEmpty then some (Decimal.nearest mantissa scale)
    else
      match Json.exponent? rest with
      | some (e, []) => some (Decimal.nearest mantissa (e + scale))
      | _ => none

/-- A number or one of the words for infinity and for no number, with blanks around it and a
sign. -/
def floatIn (cs : List Char) : Except Problem Float :=
  let trimmed := Text.trim cs
  let body := Tag.unsigned trimmed
  let read :=
    if body == "inf".toList || body == "infinity".toList then some (1.0 / 0.0)
    else if body == "nan".toList then some (0.0 / 0.0)
    else unsignedFloat? body
  match read with
  | some x => .ok (if trimmed.head? == some '-' then -x else x)
  | none => .error (.notFloat (String.ofList cs))

/-- The number that parts in base sixty make, the last one first. -/
def sexagesimalFloat (parts : List Float) : Float :=
  (parts.foldl (fun (sum, base) part => (sum + part * base, base * 60)) ((0.0 : Float), 1.0)).1

/-- The value of a float scalar. -/
def floatValue (text : String) : Except Problem Float := do
  let cs := (Text.lowered (String.ofList (text.toList.filter (· != '_')))).toList
  if cs.isEmpty then throw .emptyNumber
  let body := Tag.unsigned cs
  let magnitude ←
    if body == ".inf".toList then pure (1.0 / 0.0)
    else if body == ".nan".toList then return 0.0 / 0.0
    else if body.contains ':' then do
      pure (sexagesimalFloat (← (Tag.splitColons [] body).mapM floatIn).reverse)
    else floatIn body
  return if cs.head? == some '-' then -magnitude else magnitude

/-! ## Other scalars -/

/-- The value of a truth value scalar. -/
def booleanValue (text : String) : Except Problem Bool :=
  match Text.lowered text with
  | "yes" | "true" | "on" => .ok true
  | "no" | "false" | "off" => .ok false
  | word => .error (.notBoolean word)

/-- The microseconds that the digits after the point stand for. -/
def microseconds (digits : List Char) : Nat :=
  let six := digits.take 6
  Json.decimalValue (six ++ List.replicate (6 - six.length) '0')

/-- The offset of a zone, which is under a day. -/
def zoneOffset (zone : Option (Char × List Char × List Char)) : Except Problem (Option Int) :=
  match zone with
  | none => .ok none
  | some (mark, hours, minutes) =>
    let size : Int :=
      (Json.decimalValue hours * 60 + Json.decimalValue minutes : Nat) * 60000000
    let offset := if mark == '-' then -size else size
    if size < Calendar.microsecondsPerDay then .ok (some offset)
    else .error (.calendar (.offset offset))

/-- A calendar result as a result of reading. -/
def orCalendar {α : Type} : Except CalendarError α → Except Problem α
  | .ok a => .ok a
  | .error e => .error (.calendar e)

/-- The value of a moment scalar: a date, or a date with its time. -/
def momentValue (text : String) : Except Problem Datum := do
  match Tag.momentParts? text.toList with
  | none => throw .notMoment
  | some parts =>
    let n := Json.decimalValue
    let date := Calendar.date? (n parts.year) (n parts.month) (n parts.day)
    match parts.time with
    | none => return .date (← orCalendar date)
    | some (hour, minute, second, fraction) =>
      let offset ← zoneOffset parts.zone
      let date ← orCalendar date
      return .dateTime (← orCalendar (Calendar.checkTime {
        date
        hour := n hour
        minute := n minute
        second := n second
        microsecond := microseconds fraction
        offset }))

/-- The value of a scalar with the given tag. -/
def scalarValue (tag text : String) : Except Problem Datum :=
  if tag = Tag.text then .ok (.text text)
  else if tag = Tag.null then .ok .null
  else if tag = Tag.boolean then Datum.bool <$> booleanValue text
  else if tag = Tag.integer then Datum.int <$> integerValue text
  else if tag = Tag.float then Datum.float <$> floatValue text
  else if tag = Tag.moment then momentValue text
  else if tag = Tag.binary then
    match Base64.bytes? text.toList with
    | some bytes => .ok (.bytes bytes)
    | none => .error .malformed
  else .error .malformed

namespace Node

/-- The tags of sequences of pairs. -/
def pairTags : List String := [Tag.orderedMapping, Tag.pairs]

/-- The tags of nodes that hold others. -/
def collectionTags : List String := Tag.sequence :: Tag.mapping :: Tag.set :: pairTags

mutual

/-- The text of a node under a scalar tag; a mapping has the text that stands under its value
key. -/
def text? : Node → Option String
  | scalar _ text => some text
  | mapping _ entries => textUnderValue? entries
  | _ => none

/-- The text under the value key. -/
def textUnderValue? : List (Node × Node) → Option String
  | [] => none
  | (key, value) :: rest => if key.tag = Tag.value then text? value else textUnderValue? rest

end

/-- The value of a node under a scalar tag. -/
def textValue (node : Node) : Except Problem Datum :=
  match node.text? with
  | some text => scalarValue node.tag text
  | none => .error .malformed

/-- A key as it is used: the value key stands for its text. -/
def usedKey (key : Node) : Node :=
  match key with
  | scalar tag text => scalar (if tag = Tag.value then Tag.text else tag) text
  | other => other

/-! ## Checking -/

mutual

/-- The entries that come from merge keys, and the entries of the mapping itself. -/
def splitMerge : List (Node × Node) → Except Problem (List (Node × Node) × List (Node × Node))
  | [] => return ([], [])
  | (key, value) :: rest => do
    if key.tag = Tag.merge then
      let more ← mergedEntries value
      let (merged, own) ← splitMerge rest
      return (more ++ merged, own)
    else
      let (merged, own) ← splitMerge rest
      return (merged, (key.usedKey, value) :: own)

/-- The entries that the value of a merge key stands for: a mapping, or several of which the first
counts most. -/
def mergedEntries : Node → Except Problem (List (Node × Node))
  | mapping _ entries => do
    let (merged, own) ← splitMerge entries
    return merged ++ own
  | sequence _ items => do
    return (← mergedItems items).reverse.flatten
  | enclosing _ _ => return []
  | scalar _ _ => throw .malformed

/-- The entries of several mappings. -/
def mergedItems : List Node → Except Problem (List (List (Node × Node)))
  | [] => return []
  | mapping _ entries :: rest => do
    let (merged, own) ← splitMerge entries
    return (merged ++ own) :: (← mergedItems rest)
  | enclosing _ true :: rest => mergedItems rest
  | _ => throw .malformed

end

/-- Whether a node holds others, whose check comes later. -/
def isCollection (node : Node) : Bool := collectionTags.contains node.tag

/-- Checks a node as far as its own text goes, and gives it back if it holds others. -/
def beginNode (node : Node) : Except Problem (List Node) := do
  match node with
  | enclosing _ _ => return []
  | _ =>
    if node.isCollection then return [node]
    let _ ← node.textValue
    return []

/-- Checks the key and the value of an entry; a key must not hold other nodes. -/
def beginEntry (entry : Node × Node) : Except Problem (List Node) := do
  match entry.1 with
  | enclosing _ _ => throw .malformed
  | key =>
    if key.isCollection then throw .malformed
    let _ ← key.textValue
    beginNode entry.2

/-- Checks the pair that an item of a sequence of pairs stands for. -/
def beginPair : Node → Except Problem (List Node)
  | mapping _ [(key, value)] => do return (← beginNode key) ++ (← beginNode value)
  | _ => throw .malformed

/-- Checks what stands in a node, and gives back the nodes in it that hold others. -/
def beginContent (node : Node) : Except Problem (List Node) := do
  match node with
  | sequence tag items =>
    if tag = Tag.sequence then return (← items.mapM beginNode).flatten
    if pairTags.contains tag then return (← items.mapM beginPair).flatten
    throw .malformed
  | mapping tag entries =>
    if tag = Tag.mapping || tag = Tag.set then
      let (merged, own) ← splitMerge entries
      return (← (merged ++ own).mapM beginEntry).flatten
    throw .malformed
  | _ => throw .malformed

/-- Checks nodes that hold others, level by level. -/
def checkLevels : Nat → List Node → Except Problem Unit
  | 0, _ => return ()
  | _, [] => return ()
  | fuel + 1, nodes => do
    checkLevels fuel (← nodes.mapM beginContent).flatten

mutual

/-- How deep nodes stand in a node. -/
def depth : Node → Nat
  | sequence _ items => depthOfItems items + 1
  | mapping _ entries => depthOfEntries entries + 1
  | _ => 1

/-- How deep nodes stand in items. -/
def depthOfItems : List Node → Nat
  | [] => 0
  | item :: rest => max (depth item) (depthOfItems rest)

/-- How deep nodes stand in entries. -/
def depthOfEntries : List (Node × Node) → Nat
  | [] => 0
  | (key, value) :: rest => max (max (depth key) (depth value)) (depthOfEntries rest)

end

/-- Checks a whole document. -/
def check (root : Node) : Except Problem Unit := do
  checkLevels (root.depth + 1) (← beginNode root)

/-! ## Values -/

/-- The value of a node under a scalar tag, if it has one. -/
def textValue? (node : Node) : Datum := (node.textValue.toOption).getD .null

mutual

/-- The value of a node that has been checked. -/
def value : Node → Datum
  | scalar tag text => (scalar tag text).textValue?
  | sequence tag items =>
    if tag = Tag.sequence then .list (valuesOfItems items)
    else if pairTags.contains tag then .list (valuesOfPairs items)
    else .null
  | mapping tag entries =>
    if tag = Tag.mapping then .mapping (Datum.ofEntries (valuesOfEntries entries))
    else if tag = Tag.set then .set (Datum.ofMembers ((valuesOfEntries entries).map Prod.fst))
    else (mapping tag entries).textValue?
  | enclosing tag isMapping =>
    -- what stands inside of itself is shown as something that is not empty
    if tag = Tag.set then .set [.null]
    else if isMapping then .mapping [(.null, .null)]
    else .list [.null]

/-- The values of items. -/
def valuesOfItems : List Node → List Datum
  | [] => []
  | item :: rest => value item :: valuesOfItems rest

/-- The values of pairs. -/
def valuesOfPairs : List Node → List Datum
  | [] => []
  | mapping _ [(key, item)] :: rest => .tuple [value key, value item] :: valuesOfPairs rest
  | _ :: rest => valuesOfPairs rest

/-- The entries that come from merge keys, and the entries of the mapping itself. -/
def valuesBySource : List (Node × Node) → List (Datum × Datum) × List (Datum × Datum)
  | [] => ([], [])
  | (key, item) :: rest =>
    let (merged, own) := valuesBySource rest
    if key.tag = Tag.merge then (valuesOfMerge item ++ merged, own)
    else
      let keyValue :=
        if key.tag = Tag.value then (key.text?.map Datum.text).getD .null else value key
      (merged, (keyValue, value item) :: own)

/-- The values of the entries of a mapping, merged ones first. -/
def valuesOfEntries (entries : List (Node × Node)) : List (Datum × Datum) :=
  let (merged, own) := valuesBySource entries
  merged ++ own

/-- The values of the entries that the value of a merge key stands for. -/
def valuesOfMerge : Node → List (Datum × Datum)
  | mapping _ entries => valuesOfEntries entries
  | sequence _ items => (valuesOfMergedItems items).reverse.flatten
  | _ => []

/-- The values of the entries of several mappings. -/
def valuesOfMergedItems : List Node → List (List (Datum × Datum))
  | [] => []
  | mapping _ entries :: rest => valuesOfEntries entries :: valuesOfMergedItems rest
  | _ :: rest => valuesOfMergedItems rest

end

end Node

/-- Reads a YAML text that holds at most one document; without one its value is null. -/
def parse (cs : List Char) : Except Problem Datum :=
  match Token.scan cs with
  | .error e => .error e.problem
  | .ok tokens =>
    match Node.ofTokens? tokens with
    | none => .error .malformed
    | some none => .ok .null
    | some (some root) => do
      root.check
      return root.value

end ComponentDocs.Yaml
