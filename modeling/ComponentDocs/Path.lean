/-!
# Paths

A path is an anchor and a list of segments.  Reading one drops empty segments and single dots
and keeps double dots, so that `a//b/` and `./a/b` are the path `a/b`; the empty path is written
as a single dot.
-/

namespace ComponentDocs

/-- Where a path starts: at the current directory, at the root, or at the second root that
exactly two leading slashes name. -/
inductive Anchor where
  | relative
  | root
  | doubleRoot
  deriving DecidableEq, Repr

/-- The text that an anchor contributes to a path. -/
def Anchor.text : Anchor → String
  | .relative => ""
  | .root => "/"
  | .doubleRoot => "//"

/-- A path: no segment is empty, a single dot or holds a slash. -/
structure Path where
  anchor : Anchor
  segments : List String
  deriving DecidableEq, Repr

namespace Path

/-- The maximal runs of other characters between the slashes of a text. -/
def splitSlashes (current : List Char) : List Char → List (List Char)
  | [] => [current.reverse]
  | '/' :: rest => current.reverse :: splitSlashes [] rest
  | c :: rest => splitSlashes (c :: current) rest

/-- The anchor of a path text. -/
def anchorOf : List Char → Anchor
  | '/' :: '/' :: '/' :: _ => .root
  | '/' :: '/' :: _ => .doubleRoot
  | '/' :: _ => .root
  | _ => .relative

/-- The segments of a path text: what stands between slashes, less empty ones and single dots. -/
def segmentsOf (cs : List Char) : List String :=
  ((splitSlashes [] cs).filter fun s => !s.isEmpty && s != ['.']).map String.ofList

/-- Reads a path. -/
def ofString (s : String) : Path := ⟨anchorOf s.toList, segmentsOf s.toList⟩

/-- Whether the path starts at a root. -/
def isAbsolute (p : Path) : Bool := p.anchor ≠ .relative

/-- The path as text. -/
def toString (p : Path) : String :=
  match p.anchor, p.segments with
  | .relative, [] => "."
  | anchor, segments => anchor.text ++ "/".intercalate segments

instance : ToString Path := ⟨toString⟩

/-- The anchor, if there is one, and the segments. -/
def parts (p : Path) : List String :=
  if p.isAbsolute then p.anchor.text :: p.segments else p.segments

/-- The last segment; empty for a root and for the current directory. -/
def name (p : Path) : String := p.segments.getLast?.getD ""

/-- The path without its last segment. -/
def parent (p : Path) : Path := { p with segments := p.segments.dropLast }

/-- The second path seen from the first: itself if it is absolute. -/
def join (p q : Path) : Path :=
  if q.isAbsolute then q else { p with segments := p.segments ++ q.segments }

/-- The path one level below. -/
def child (p : Path) (segment : String) : Path := { p with segments := p.segments ++ [segment] }

/-- The path with its last segment replaced, if it has one. -/
def withName? (p : Path) (name : String) : Option Path :=
  if p.segments.isEmpty then none
  else some { p with segments := p.segments.dropLast ++ [name] }

/-- The part of a file name before the dot of its suffix, and the suffix with the dot.  A dot at
either end of the name starts no suffix. -/
def splitSuffix (name : List Char) : List Char × List Char :=
  let tail := (name.reverse.takeWhile (· != '.')).reverse
  let stem := name.take (name.length - (tail.length + 1))
  if tail.isEmpty || stem.isEmpty || tail.length == name.length then (name, [])
  else (stem, '.' :: tail)

/-- The file name without its final suffix. -/
def stem (p : Path) : String := String.ofList (splitSuffix p.name.toList).1

/-- The final suffix of the file name with its dot, or nothing. -/
def suffix (p : Path) : String := String.ofList (splitSuffix p.name.toList).2

/-- The segments with each double dot resolved against the segment before it. -/
def resolveDots (segments : List String) : List String :=
  segments.foldl (fun done s => if s = ".." then done.dropLast else done ++ [s]) []

end Path

end ComponentDocs
