import ComponentDocs.Pattern.Regex

/-!
# Matching by backtracking

An expression is matched at a spot of a text by trying its ways to match in order, each of them
together with what is to match behind it.  That is handed on as a function, so that a way after
which it does not match is given up for the next one.
-/

namespace ComponentDocs

/-- A spot in a text: what stands before it, nearest first, and what follows, together with what
groups have matched on the way to it, latest first. -/
structure Spot where
  before : List Char
  rest : List Char
  kept : List (Nat × List Char) := []
  deriving DecidableEq, Repr

namespace Spot

/-- The spot behind the next character, if it is of a kind. -/
def pass? (kind : Char → Bool) (s : Spot) : Option Spot :=
  match s.rest with
  | c :: rest => if kind c then some { s with before := c :: s.before, rest } else none
  | [] => none

/-- The spot a number of characters back. -/
def back? : Nat → Spot → Option Spot
  | 0, s => some s
  | n + 1, s =>
    match s.before with
    | c :: before => back? n { s with before, rest := c :: s.rest }
    | [] => none

/-- The spot behind a text that follows once more, its case aside if the flags say so. -/
def behind? (flags : List Flag) : List Char → Spot → Option Spot
  | [], s => some s
  | c :: cs, s =>
    let number (c : Char) :=
      if .ignoreCase ∈ flags then lowerNumber (.ascii ∈ flags) c.toNat else c.toNat
    (s.pass? fun d => number c = number d).bind (behind? flags cs)

/-- The spot with what a group has matched from a first spot up to this one. -/
def keeping (s : Spot) (number : Nat) (start : Spot) : Spot :=
  { s with kept := (number, start.rest.take (start.rest.length - s.rest.length)) :: s.kept }

/-- The spot itself, if a match around it is there or not as asked for.  A match that is asked for
leaves what its groups have matched. -/
def looked (positive : Bool) (s : Spot) : Option Spot → Option Spot
  | some t => if positive then some { s with kept := t.kept } else none
  | none => if positive then none else some s

/-- Whether a word begins or ends at a spot. -/
def atWordEdge (flags : List Flag) (s : Spot) : Bool :=
  let isWord := CharKind.word.has (.ascii ∈ flags)
  s.before.head?.any isWord != s.rest.head?.any isWord

end Spot

/-- Whether a spot is one that a mark asks for.  An empty text has neither edges of words nor spots
without one. -/
def Mark.holds (flags : List Flag) (s : Spot) : Mark → Bool
  | textStart => s.before.isEmpty
  | lineStart => s.before.isEmpty || (.multiLine ∈ flags && s.before.head? = some '\n')
  | lineEnd => s.rest.isEmpty || s.rest = ['\n'] || (.multiLine ∈ flags && s.rest.head? = some '\n')
  | textEnd => s.rest.isEmpty
  | wordEdge => s.atWordEdge flags
  | noWordEdge => !(s.before.isEmpty && s.rest.isEmpty) && !s.atWordEdge flags

/-- What is to match from a spot on, up to where the whole match ends. -/
abbrev Onward := Spot → Option Spot

namespace Regex

/-- A given number of rounds. -/
def exactly (round : Onward → Onward) : Nat → Onward → Onward
  | 0, next => next
  | n + 1, next => round (exactly round n next)

/-- Up to a number of rounds, with more of them tried first unless the repetition is lazy.  After a
round that used up nothing, which is told by the length of the rest it started from, there is no
other. -/
def upTo (isLazy : Bool) (round : Onward → Onward) (next : Onward) :
    Nat → Option Nat → Onward
  | 0, _, s => next s
  | n + 1, last, s =>
    let more (_ : Unit) :=
      if last = some s.rest.length then none
      else round (upTo isLazy round next n (some s.rest.length)) s
    if isLazy then (next s).orElse more else (more ()).orElse fun _ => next s

/-- How many rounds there can be at a spot after the least number of them: as each but the last uses
up a character, the length of the rest bounds them. -/
def roundsLeft (least : Nat) (most : Option Nat) (s : Spot) : Nat :=
  match most with
  | some n => min (n - least) (s.rest.length + 1)
  | none => s.rest.length + 1

/-- From the least to the greatest number of rounds. -/
def rounds (isLazy : Bool) (least : Nat) (most : Option Nat) (round : Onward → Onward)
    (next : Onward) : Onward :=
  exactly round least fun s => upTo isLazy round next (roundsLeft least most s) none s

/-- The first way to match, which is not given up if what follows does not match. -/
def first (match? : Onward → Onward) (next : Onward) : Onward :=
  fun s => (match? some s).bind next

/-- The end of the first match from a spot on after which the next part matches. -/
def run : Regex → List Flag → Onward → Onward
  | empty, _, next => next
  | one set, flags, next => fun s => (s.pass? (set.has flags)).bind next
  | dot, flags, next => fun s => (s.pass? fun c => .dotAll ∈ flags || c ≠ '\n').bind next
  | mark m, flags, next => fun s => if m.holds flags s then next s else none
  | seq p q, flags, next => run p flags (run q flags next)
  | alt p q, flags, next => fun s => (run p flags next s).orElse fun _ => run q flags next s
  | repeated .greedy least most p, flags, next => rounds false least most (run p flags) next
  | repeated .lazy least most p, flags, next => rounds true least most (run p flags) next
  | repeated .possessive least most p, flags, next =>
    first (rounds false least most (first (run p flags))) next
  | group number p, flags, next => fun s => run p flags (fun t => next (t.keeping number s)) s
  | flagged on off p, flags, next => run p (Flag.within on off flags) next
  | atomic p, flags, next => first (run p flags) next
  | look ahead positive p, flags, next => fun s =>
    let start := if ahead then some s else s.back? p.lengths.least
    (s.looked positive (start.bind (run p flags some))).bind next
  | same number _, flags, next => fun s =>
    ((s.kept.lookup number).bind fun text => s.behind? flags text).bind next
  | conditional number yes no, flags, next => fun s =>
    if (s.kept.lookup number).isSome then run yes flags next s else run no flags next s

/-- Whether a match starts at one of the spots from a given one on. -/
def findFrom (p : Regex) (flags : List Flag) (before : List Char) : List Char → Bool
  | [] => (p.run flags some ⟨before, [], []⟩).isSome
  | c :: rest =>
    (p.run flags some ⟨before, c :: rest, []⟩).isSome || p.findFrom flags (c :: before) rest

end Regex

end ComponentDocs
