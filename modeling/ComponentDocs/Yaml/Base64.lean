/-!
# Base 64

Reading bytes from letters of six bits.  Other characters are passed over; the text ends at its
padding or at its end, which must complete a group.
-/

namespace ComponentDocs.Base64

/-- The six bits of a letter. -/
def bits? (c : Char) : Option Nat :=
  if 'A' ≤ c && c ≤ 'Z' then some (c.toNat - 'A'.toNat)
  else if 'a' ≤ c && c ≤ 'z' then some (c.toNat - 'a'.toNat + 26)
  else if c.isDigit then some (c.toNat - '0'.toNat + 52)
  else if c == '+' then some 62
  else if c == '/' then some 63
  else none

/-- The bytes from a place on: `n` letters of the current group have been read, of which the bits
`left` are still to be used, and then `pads` padding marks. -/
def bytesFrom (n left pads : Nat) : List Char → Option (List UInt8)
  | [] => if n == 0 then some [] else none
  | c :: rest =>
    if c == '=' then
      if n < 2 then bytesFrom n left pads rest
      else if 4 ≤ n + pads + 1 then some []
      else bytesFrom n left (pads + 1) rest
    else
      match bits? c with
      | none => bytesFrom n left pads rest
      | some b =>
        match n with
        | 0 => bytesFrom 1 b 0 rest
        | 1 => (bytesFrom 2 (b % 16) 0 rest).map (UInt8.ofNat (left * 4 + b / 16) :: ·)
        | 2 => (bytesFrom 3 (b % 4) 0 rest).map (UInt8.ofNat (left * 16 + b / 4) :: ·)
        | _ => (bytesFrom 0 0 0 rest).map (UInt8.ofNat (left * 64 + b) :: ·)

/-- The bytes of a text, if its letters are ASCII and its last group is complete. -/
def bytes? (cs : List Char) : Option (List UInt8) :=
  if cs.all fun c => c.toNat < 0x80 then bytesFrom 0 0 0 cs else none

end ComponentDocs.Base64
