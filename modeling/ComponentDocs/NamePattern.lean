import ComponentDocs.Pattern.Matching
import ComponentDocs.Pattern.Reading

/-!
# Patterns for file names

A pattern for file names is a regular expression with the flags that stand in front of it.  It
matches a name if it matches some part of it.
-/

namespace ComponentDocs

/-- A pattern for file names. -/
structure NamePattern where
  regex : Regex
  flags : List Flag := []
  deriving DecidableEq, Repr

namespace NamePattern

/-- Whether a pattern matches some part of a name. -/
def found (p : NamePattern) (name : String) : Bool := p.regex.findFrom p.flags [] name.toList

/-- Reads a pattern.  What cannot be told from one part of it is looked at in the end: whether all
levels are closed, whether the flags go together, whether the groups that conditions ask for are
there, and whether what is looked back for has one length. -/
def parse (names : CharacterNames) (text : String) : Except PatternProblem NamePattern := do
  let tokens := PatternToken.ofText text.toList
  let (_, r) ← (PatternReader.readOn names tokens.length).run { tokens }
  if !r.outer.isEmpty then throw .malformed
  if .ascii ∈ r.flags && .unicode ∈ r.flags then throw .twoChoices
  if !r.tokens.isEmpty || r.asked.any (r.groups.length < ·) then throw .malformed
  let regex := r.level.regex
  if !regex.looksBackFar || .template ∈ r.flags && regex.hasRounds then throw .malformed
  return { regex, flags := r.flags }

end NamePattern

end ComponentDocs
