import ComponentDocs.Source.Reader

/-!
# Literals

Reading numbers, strings, regular expressions and the plain characters of templates.  Only their
extent matters.
-/

namespace ComponentDocs.Source.Literal

open Reader

/-- The number of characters of a quoted text through its closing mark; a backslash takes the next
character with it. -/
def quotedLength (quote : Char) (n : Nat) : List Char → Option Nat
  | [] => none
  | '\\' :: _ :: rest => quotedLength quote (n + 2) rest
  | c :: rest => if c == quote then some (n + 1) else quotedLength quote (n + 1) rest

/-- A string in single or double quotes. -/
def string : Reader Unit := do
  skipGap
  match ← upcoming with
  | c :: rest =>
    if c == '"' || c == '\'' then
      match quotedLength c 1 rest with
      | some n => advance n
      | none => failure
    else failure
  | [] => failure

/-- The digits, letters and underscores at the start. -/
def alphanumeric (cs : List Char) : List Char :=
  cs.takeWhile fun c => c.isAlphanum || c == '_'

/-- The digits and underscores at the start. -/
def digitRun (cs : List Char) : List Char := cs.takeWhile fun c => c.isDigit || c == '_'

/-- The length of an exponent part. -/
def exponentLength : List Char → Nat
  | e :: sign :: rest =>
    if e == 'e' || e == 'E' then
      if sign == '+' || sign == '-' then 2 + (digitRun rest).length
      else if sign.isDigit then 1 + (digitRun (sign :: rest)).length
      else 0
    else 0
  | _ => 0

/-- The length of a number. -/
def numberLength? (cs : List Char) : Option Nat :=
  match cs with
  | '0' :: radix :: _ =>
    if radix.isAlpha && radix != 'e' && radix != 'E' && radix != 'n' then
      some (alphanumeric cs).length
    else decimalLength? cs
  | _ => decimalLength? cs
where
  /-- The length of a decimal number. -/
  decimalLength? (cs : List Char) : Option Nat :=
    let whole := (digitRun cs).length
    let rest := cs.drop whole
    let fraction := match rest with
      | '.' :: rest => 1 + (digitRun rest).length
      | _ => 0
    if whole == 0 && fraction ≤ 1 then none
    else
      let rest := rest.drop fraction
      let exponent := exponentLength rest
      let suffix := if (rest.drop exponent).head? == some 'n' then 1 else 0
      some (whole + fraction + exponent + suffix)

/-- A number. -/
def number : Reader Unit := do
  skipGap
  match ← upcoming with
  | c :: cs =>
    if c.isDigit || c == '.' then
      match numberLength? (c :: cs) with
      | some n => advance n
      | none => failure
    else failure
  | [] => failure

/-- The length of a regular expression after its opening slash; a slash inside a class does not
close it. -/
def regexLength (inClass : Bool) (n : Nat) : List Char → Option Nat
  | [] => none
  | '\\' :: _ :: rest => regexLength inClass (n + 2) rest
  | c :: rest =>
    if c == '\n' then none
    else if c == '[' then regexLength true (n + 1) rest
    else if c == ']' then regexLength false (n + 1) rest
    else if c == '/' && !inClass then some (n + 1 + (rest.takeWhile Char.isAlpha).length)
    else regexLength inClass (n + 1) rest

/-- A regular expression. -/
def regex : Reader Unit := do
  skipGap
  match ← upcoming with
  | '/' :: rest =>
    match regexLength false 1 rest with
    | some n => advance n
    | none => failure
  | _ => failure

/-- The number of characters of a template before its end or its next substitution. -/
def templateRun (n : Nat) : List Char → Nat
  | [] => n
  | '\\' :: _ :: rest => templateRun (n + 2) rest
  | '\x60' :: _ => n
  | '$' :: '\x7b' :: _ => n
  | _ :: rest => templateRun (n + 1) rest

/-- The characters of a template up to its end or its next substitution. -/
def templateText : Reader Unit := fun c => some ((), c.advance (templateRun 0 c.rest))

/-- The given characters without a gap before them. -/
def exactly (s : String) : Reader Unit := fun c =>
  if s.toList.isPrefixOf c.rest then some ((), c.advance s.length) else none

/-- A template, with what stands in its substitutions. -/
def template {α : Type} (substitution : Reader α) : Reader (List α) := do
  symbol "`"
  templateText
  let parts ← many (do
    exactly "$\x7b"
    let a ← substitution
    symbol "\x7d"
    templateText
    return a)
  exactly "`"
  return parts

end ComponentDocs.Source.Literal
