import ComponentDocs.Text.Blank
import ComponentDocs.Text.Casing
import ComponentDocs.Text.Letters

/-!
# Regular expressions

What patterns are made of: sets of characters, marks for places, groups that keep what they matched,
repetitions that prefer more or fewer rounds, and conditions on what stands around a place.  The
flags say how sets and marks are meant; a group can put them on and off for what it holds.
-/

namespace ComponentDocs

/-- What decides how a pattern is read and matched. -/
inductive Flag where
  /-- Kinds of characters and case are those of ASCII. -/
  | ascii
  | dotAll
  | ignoreCase
  | multiLine
  /-- A pattern without repetitions. -/
  | template
  /-- Kinds of characters and case are those of Unicode. -/
  | unicode
  | verbose
  deriving DecidableEq, Repr

/-- Whether a flag chooses what the kinds of characters are. -/
def Flag.isChoice (flag : Flag) : Bool := flag = .ascii || flag = .unicode

/-- The flags in a group that puts some on and some off. -/
def Flag.within (on off outer : List Flag) : List Flag :=
  let kept := if on.any isChoice then outer.filter (!·.isChoice) else outer
  (on ++ kept).filter (· ∉ off)

/-! ## Sets of characters -/

/-- The kinds of characters that have an escape of their own. -/
inductive CharKind where
  | digit
  | space
  | word
  deriving DecidableEq, Repr

/-- A member of a set of characters.  Characters are given by their numbers. -/
inductive SetMember where
  | one (n : Nat)
  | range (low high : Nat)
  | kind (kind : CharKind) (negated : Bool)
  deriving DecidableEq, Repr

/-- A set of characters given by its members, or all characters but those. -/
structure CharSet where
  negated : Bool := false
  members : List SetMember
  deriving DecidableEq, Repr

/-- Whether a character is of a kind. -/
def CharKind.has (ascii : Bool) : CharKind → Char → Bool
  | digit, c => if ascii then c.isDigit else Text.isDecimal c
  | space, c => if ascii then c == ' ' || ('\t' ≤ c && c ≤ '\r') else Text.isBlank c
  | word, c => if ascii then c.isAlphanum || c == '_' else Text.isWord c

/-- The number of the lower case form of a character; where that form has several characters, the
first one counts. -/
def lowerNumber (ascii : Bool) (n : Nat) : Nat :=
  if n < 0x80 then (Char.ofNat n).toLower.toNat
  else if ascii || !decide n.isValidChar then n
  else (Text.lowerChar (Char.ofNat n)).head?.elim n Char.toNat

/-- What stands for a character when case is ignored: characters count as the same if their lower
case forms have the same upper case form. -/
def caseless (ascii : Bool) (n : Nat) : List Nat :=
  let low := lowerNumber ascii n
  if ascii || !decide low.isValidChar then [low]
  else (Text.upperChar (Char.ofNat low)).map Char.toNat

/-- The numbers of all characters with two cases. -/
def casedNumbers : List Nat :=
  let numbers (run : Text.CaseRun) :=
    (List.range' run.first (run.last + 1 - run.first)).filter run.covers
  List.range' 'A'.toNat 26 ++ List.range' 'a'.toNat 26 ++
    (Text.lowerRuns ++ Text.upperRuns).flatMap numbers ++ ['İ'.toNat] ++
      Text.upperExpansions.map Prod.fst

/-- Whether two characters count as the same. -/
def sameNumber (flags : List Flag) (m n : Nat) : Bool :=
  if .ignoreCase ∈ flags then
    m == n || caseless (.ascii ∈ flags) m == caseless (.ascii ∈ flags) n
  else m == n

/-- Whether a member of a set covers a character. -/
def SetMember.has (flags : List Flag) : SetMember → Char → Bool
  | one n, c => sameNumber flags n c.toNat
  | range low high, c =>
    (low ≤ c.toNat && c.toNat ≤ high) || (.ignoreCase ∈ flags &&
      casedNumbers.any fun n => low ≤ n && n ≤ high && sameNumber flags n c.toNat)
  | kind k negated, c => k.has (.ascii ∈ flags) c != negated

/-- Whether a character belongs to a set. -/
def CharSet.has (flags : List Flag) (set : CharSet) (c : Char) : Bool :=
  set.members.any (·.has flags c) != set.negated

/-! ## Expressions -/

/-- A place in a text that can be asked for. -/
inductive Mark where
  | textStart
  | lineStart
  | lineEnd
  | textEnd
  | wordEdge
  | noWordEdge
  deriving DecidableEq, Repr

/-- Which numbers of rounds a repetition tries first; a possessive one stays with the first that it
finds. -/
inductive Manner where
  | greedy
  | lazy
  | possessive
  deriving DecidableEq, Repr

/-- How many characters the matches of an expression can have. -/
structure Lengths where
  least : Nat
  most : Nat
  deriving DecidableEq, Repr

/-- A regular expression. -/
inductive Regex where
  | empty
  | one (set : CharSet)
  /-- Any character, but for the end of a line unless the flags say so. -/
  | dot
  | mark (mark : Mark)
  | seq (p q : Regex)
  | alt (p q : Regex)
  | repeated (manner : Manner) (least : Nat) (most : Option Nat) (p : Regex)
  /-- A group that keeps what it matched under its number. -/
  | group (number : Nat) (p : Regex)
  /-- A group in which flags are put on and off. -/
  | flagged (on off : List Flag) (p : Regex)
  /-- Only the first way to match counts. -/
  | atomic (p : Regex)
  /-- A match ahead of the place, or one that ends there, without using it up. -/
  | look (ahead positive : Bool) (p : Regex)
  /-- What a group matched once more; its lengths are those of the group. -/
  | same (number : Nat) (lengths : Lengths)
  /-- One of two expressions, by whether a group has matched. -/
  | conditional (number : Nat) (yes no : Regex)
  deriving DecidableEq, Repr

namespace Lengths

/-- The number from which on lengths are no longer told apart. -/
def limit : Nat := 0x10000000000000000

/-- Lengths no greater than the limit. -/
def capped (l : Lengths) : Lengths := ⟨min l.least limit, min l.most limit⟩

def add (l m : Lengths) : Lengths := capped ⟨l.least + m.least, l.most + m.most⟩

def either (l m : Lengths) : Lengths := ⟨min l.least m.least, max l.most m.most⟩

/-- The lengths of several rounds. -/
def rounds (l : Lengths) (least : Nat) (most : Option Nat) : Lengths :=
  capped ⟨l.least * least, match most with
    | some n => l.most * n
    | none => if l.most = 0 then 0 else limit⟩

end Lengths

namespace Regex

/-- The lengths of the matches of an expression. -/
def lengths : Regex → Lengths
  | empty | mark _ | look .. => ⟨0, 0⟩
  | one _ | dot => ⟨1, 1⟩
  | seq p q => p.lengths.add q.lengths
  | alt p q => p.lengths.either q.lengths
  | repeated _ least most p => p.lengths.rounds least most
  | group _ p | flagged _ _ p | atomic p => p.lengths
  | same _ lengths => lengths
  | conditional _ yes no => yes.lengths.either no.lengths

/-- The greatest number of characters that can be looked back at. -/
def lookBackLimit : Nat := 0xFFFFFFFF

/-- Whether everything that is looked back for has one length, and not too great a one. -/
def looksBackFar : Regex → Bool
  | empty | one _ | dot | mark _ | same .. => true
  | seq p q | alt p q | conditional _ p q => p.looksBackFar && q.looksBackFar
  | repeated _ _ _ p | group _ p | flagged _ _ p | atomic p => p.looksBackFar
  | look ahead _ p =>
    (ahead || (p.lengths.least == p.lengths.most && p.lengths.least ≤ lookBackLimit)) &&
      p.looksBackFar

/-- Whether there is a repetition somewhere. -/
def hasRounds : Regex → Bool
  | empty | one _ | dot | mark _ | same .. => false
  | seq p q | alt p q | conditional _ p q => p.hasRounds || q.hasRounds
  | repeated .. => true
  | group _ p | flagged _ _ p | atomic p | look _ _ p => p.hasRounds

end Regex

end ComponentDocs
