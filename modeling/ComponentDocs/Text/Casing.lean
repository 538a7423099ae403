import ComponentDocs.Text.CaseTable

/-!
# Upper and lower case

Full Unicode case mapping of a text.  A capital sigma becomes the final form `ς` at the end of a
word and `σ` elsewhere; every other character maps by itself.
-/

namespace ComponentDocs.Text

/-- The number moved by an offset. -/
def CaseRun.apply (run : CaseRun) (n : Nat) : Nat := (Int.ofNat n + run.offset).toNat

/-- The image of a character beyond ASCII under the first run that covers it. -/
def mapByRuns (runs : List CaseRun) (c : Char) : Char :=
  match runs.find? (·.covers c.toNat) with
  | some run => Char.ofNat (run.apply c.toNat)
  | none => c

/-- The lower case form of a character, whatever stands around it. -/
def lowerChar (c : Char) : List Char :=
  if c.toNat < 0x80 then [c.toLower]
  else if c = 'İ' then ['i', '\u0307']
  else [mapByRuns lowerRuns c]

/-- The upper case form of a character. -/
def upperChar (c : Char) : List Char :=
  if c.toNat < 0x80 then [c.toUpper]
  else
    match upperExpansions.lookup c.toNat with
    | some form => form.map Char.ofNat
    | none => [mapByRuns upperRuns c]

/-- Whether the nearest character that is not passed over is a letter with case. -/
def meetsCased (cs : List Char) : Bool :=
  match cs.dropWhile fun c => inClass caseIgnorableSwitches c.toNat with
  | [] => false
  | c :: _ => inClass casedSwitches c.toNat

/-- The lower case form of a text that follows the characters `before`, nearest first. -/
def lowerAfter (before : List Char) : List Char → List Char
  | [] => []
  | c :: rest =>
    let form :=
      if c = 'Σ' then [if meetsCased before && !meetsCased rest then 'ς' else 'σ']
      else lowerChar c
    form ++ lowerAfter (c :: before) rest

/-- The text in lower case. -/
def lower (cs : List Char) : List Char := lowerAfter [] cs

/-- The text in upper case. -/
def upper (cs : List Char) : List Char := cs.flatMap upperChar

/-- `lower` on strings. -/
def lowered (s : String) : String := String.ofList (lower s.toList)

/-- `upper` on strings. -/
def uppered (s : String) : String := String.ofList (upper s.toList)

end ComponentDocs.Text
