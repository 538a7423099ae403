import ComponentDocs.Text.Printable

/-!
# Quoted texts

A text or a byte sequence between quotation marks, on one line and in printable characters.
Single quotes are used unless the text holds a single quote and no double quote; the quotation
mark in use, the backslash, and what is not printable are escaped.
-/

namespace ComponentDocs.Text

/-- A number in lower case hexadecimal with exactly the given number of digits. -/
def hexDigits (width n : Nat) : List Char :=
  let digits := Nat.toDigits 16 n
  List.replicate (width - digits.length) '0' ++ digits

/-- The quotation mark for a text with the given characters. -/
def quoteFor (cs : List Char) : Char := if cs.contains '\'' && !cs.contains '"' then '"' else '\''

/-- A character inside quotation marks. -/
def escaped (quote c : Char) : List Char :=
  if c == quote || c == '\\' then ['\\', c]
  else if c == '\t' then ['\\', 't']
  else if c == '\n' then ['\\', 'n']
  else if c == '\r' then ['\\', 'r']
  else if isPrintable c then [c]
  else
    let n := c.toNat
    if n < 0x100 then '\\' :: 'x' :: hexDigits 2 n
    else if n < 0x10000 then '\\' :: 'u' :: hexDigits 4 n
    else '\\' :: 'U' :: hexDigits 8 n

/-- A text between quotation marks. -/
def quoted (s : String) : String :=
  let quote := quoteFor s.toList
  String.ofList (quote :: s.toList.flatMap (escaped quote) ++ [quote])

/-- A byte sequence between quotation marks, marked as such by a leading `b`; bytes beyond ASCII
are escaped. -/
def quotedBytes (bytes : List UInt8) : String :=
  let cs := bytes.map fun b => Char.ofNat b.toNat
  let quote := quoteFor cs
  let one (c : Char) : List Char :=
    if c.toNat < 0x7F then escaped quote c else '\\' :: 'x' :: hexDigits 2 c.toNat
  String.ofList ('b' :: quote :: cs.flatMap one ++ [quote])

end ComponentDocs.Text
