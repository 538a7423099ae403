/-!
# UTF-8

Reading bytes as characters.  A byte that starts no well-formed sequence stands for nothing: the
strict reading refuses it, the lenient one leaves it out.
-/

namespace ComponentDocs.Text

/-- A byte that continues a sequence. -/
def isContinuation (b : UInt8) : Bool := 0x80 ≤ b && b ≤ 0xBF

/-- The character of a sequence of two bytes. -/
def two (a b : UInt8) : Char := Char.ofNat ((a.toNat - 0xC0) * 64 + (b.toNat - 0x80))

/-- The character of a sequence of three bytes. -/
def three (a b c : UInt8) : Char :=
  Char.ofNat (((a.toNat - 0xE0) * 64 + (b.toNat - 0x80)) * 64 + (c.toNat - 0x80))

/-- The character of a sequence of four bytes. -/
def four (a b c d : UInt8) : Char :=
  Char.ofNat ((((a.toNat - 0xF0) * 64 + (b.toNat - 0x80)) * 64 + (c.toNat - 0x80)) * 64 +
    (d.toNat - 0x80))

/-- Whether `b` may stand second after the first byte `a`: shorter forms, surrogates and numbers
above U+10FFFF are not well-formed. -/
def secondFits (a b : UInt8) : Bool :=
  if a == 0xE0 then 0xA0 ≤ b && b ≤ 0xBF
  else if a == 0xED then 0x80 ≤ b && b ≤ 0x9F
  else if a == 0xF0 then 0x90 ≤ b && b ≤ 0xBF
  else if a == 0xF4 then 0x80 ≤ b && b ≤ 0x8F
  else isContinuation b

/-- The character whose sequence starts with `a`, and the number of further bytes it uses. -/
def sequence? (a : UInt8) (rest : List UInt8) : Option (Char × Nat) :=
  if a < 0x80 then some (Char.ofNat a.toNat, 0)
  else if 0xC2 ≤ a && a ≤ 0xDF then
    match rest with
    | b :: _ => if isContinuation b then some (two a b, 1) else none
    | _ => none
  else if 0xE0 ≤ a && a ≤ 0xEF then
    match rest with
    | b :: c :: _ => if secondFits a b && isContinuation c then some (three a b c, 2) else none
    | _ => none
  else if 0xF0 ≤ a && a ≤ 0xF4 then
    match rest with
    | b :: c :: d :: _ =>
      if secondFits a b && isContinuation c && isContinuation d then some (four a b c d, 3) else none
    | _ => none
  else none

/-- The characters of the bytes after the first `skip`; `none` stands for a stray byte. -/
def readAfter : Nat → List UInt8 → List (Option Char)
  | _, [] => []
  | skip + 1, _ :: rest => readAfter skip rest
  | 0, a :: rest =>
    match sequence? a rest with
    | some (c, n) => some c :: readAfter n rest
    | none => none :: readAfter 0 rest

/-- The characters of the bytes, stray bytes left out. -/
def readLenient (bytes : List UInt8) : List Char := (readAfter 0 bytes).filterMap id

/-- The characters of the bytes, if there are no stray ones. -/
def readStrict? (bytes : List UInt8) : Option (List Char) := (readAfter 0 bytes).mapM id

/-- The bytes of a text. -/
def bytesOf (s : String) : List UInt8 := s.toUTF8.data.toList

/-- The text with carriage returns, alone or before a line feed, turned into line feeds. -/
def unifyNewlines : List Char → List Char
  | [] => []
  | '\r' :: '\n' :: rest => '\n' :: unifyNewlines rest
  | '\r' :: rest => '\n' :: unifyNewlines rest
  | c :: rest => c :: unifyNewlines rest

/-- The characters of a text file, if its bytes are well-formed. -/
def readText? (bytes : List UInt8) : Option (List Char) := (readStrict? bytes).map unifyNewlines

end ComponentDocs.Text
