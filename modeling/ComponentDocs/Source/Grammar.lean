import ComponentDocs.Source.Literal

/-!
# The grammar's knot

Types, expressions, elements and statements contain one another.  Each production is an ordinary
definition over the record of productions it may call, and `Rules` is that record.  What
productions of several kinds share stands here: names of properties, parameters and their patterns.
-/

namespace ComponentDocs.Source

/-- What a parameter or variable is bound to: the elements of an object pattern, if it is one, and
the first function among the default values in it. -/
structure Target where
  pattern : Option (List PatternElement)
  found : Found

/-- The productions that others call. -/
structure Rules where
  /-- Whether an angle bracket can open an element. -/
  elements : Bool
  type : Reader TypeShape
  /-- An expression without commas.  The flags say whether `in` is an operator and whether an arrow
  function at its start can have a return annotation. -/
  assignment : (inOperator annotated : Bool) → Reader Found
  target : Reader Target
  /-- An element, starting at its angle bracket. -/
  element : Reader Found
  statement : Reader (Definition × Found)

namespace Grammar

open Reader

variable (r : Rules)

/-- An expression without commas. -/
def expression : Reader Found := r.assignment true true

/-- Expressions joined by commas. -/
def expressions (inOperator : Bool) : Reader Found := do
  let first ← r.assignment inOperator true
  let rest ← many (symbol "," *> r.assignment inOperator true)
  return firstOf (first :: rest)

/-! ## Names of properties -/

/-- A private name. -/
def privateName : Reader Unit := do
  symbol "#"
  let _ ← word

/-- The name of a property: a word, string, number, private name or computed name. -/
def propertyName : Reader Found :=
  giving none word <|> giving none Literal.string <|> giving none Literal.number <|>
    giving none privateName <|> (symbol "[" *> expressions r true <* symbol "]")

/-- A word that modifies the member after it; alone it would be the member's name. -/
def modifier (words : List String) : Reader Unit := do
  let _ ← oneOf words
  sameLine
  expect (giving none (symbol "*") <|> propertyName r)

/-! ## Types in other places -/

/-- Type arguments. -/
def typeArguments : Reader Unit := do
  symbol "<"
  let _ ← separated r.type (symbol ",")
  symbol ">"

/-- One type parameter. -/
def typeParameter : Reader Unit := do
  let _ ← many (oneOf ["const", "in", "out"] <* expect word <* refuse (keyword "extends"))
  let _ ← word
  let _ ← option (keyword "extends" *> r.type)
  let _ ← option (symbol "=" *> r.type)

/-- Type parameters. -/
def typeParameters : Reader Unit := do
  symbol "<"
  let _ ← separated (typeParameter r) (symbol ",")
  symbol ">"

/-- What a function returns: a type, or an assertion about a parameter. -/
def resultType : Reader Unit :=
  (do let _ ← option (keyword "asserts" <* sameLine)
      let _ ← word
      sameLine
      keyword "is"
      let _ ← r.type) <|>
  (do keyword "asserts"
      sameLine
      let _ ← word) <|>
  (do let _ ← r.type)

/-- A type annotation, as written. -/
def typeClause : Reader String := textOf (symbol ":" *> r.type)

/-- The type after the parameters of a function. -/
def returnClause : Reader Unit := symbol ":" *> resultType r

/-! ## Patterns and parameters -/

/-- An element of an object pattern. -/
def patternElement : Reader (PatternElement × Found) :=
  (do symbol "..."
      let rest ← r.target
      return (.plain, rest.found)) <|>
  (do let (keyFound, key) ← withText (propertyName r)
      symbol ":"
      let target ← r.target
      match ← option (symbol "=" *> withText (expression r)) with
      | some (found, value) =>
        return (.renamed key value, firstOf [keyFound, target.found, found])
      | none => return (.plain, firstOf [keyFound, target.found])) <|>
  (do let name ← word
      match ← option (symbol "=" *> withText (expression r)) with
      | some (found, value) => return (.shorthand name value, found)
      | none => return (.plain, none))

/-- An object pattern. -/
def objectPattern : Reader Target := do
  symbol "\x7b"
  let elements ← option (separated (patternElement r) (symbol ","))
  symbol "\x7d"
  let elements := elements.getD []
  return ⟨some (elements.map Prod.fst), firstOf (elements.map Prod.snd)⟩

/-- An array pattern; places may be left out. -/
def arrayPattern : Reader Target := do
  symbol "["
  let found ← many (giving none (symbol ",") <|> do
    let _ ← option (symbol "...")
    let target ← r.target
    let value ← option (symbol "=" *> expression r)
    return firstOf [target.found, value.join])
  symbol "]"
  return ⟨none, firstOf found⟩

/-- What can stand on the left of a binding. -/
def target : Reader Target :=
  objectPattern r <|> arrayPattern r <|> giving ⟨none, none⟩ name

/-- A decorator: a name with members and arguments, or an expression in parentheses. -/
def decorator : Reader Found := do
  symbol "@"
  (symbol "(" *> expressions r true <* symbol ")") <|> do
    let _ ← word
    let parts ← many (giving none (symbol "." *> word) <|> giving none (typeArguments r) <|> do
      symbol "("
      let arguments ← option (separated (expression r) (symbol ","))
      symbol ")"
      return firstOf (arguments.getD []))
    return firstOf parts

/-- A parameter and the first function in its default values. -/
def parameter : Reader (Parameter × Found) := do
  let decorators ← many (decorator r)
  let _ ← many (oneOf ["public", "private", "protected", "override", "readonly"] <*
    refuse (symbol "," <|> symbol ")" <|> symbol ":" <|> symbol "?" <|> symbol "="))
  let rest ← accepts (symbol "...")
  let target ← r.target <|> giving ⟨none, none⟩ (keyword "this")
  let _ ← option (symbol "?")
  let type ← option (typeClause r)
  let value ← option (symbol "=" *> expression r)
  return (⟨if rest then none else target.pattern, type⟩,
    firstOf (decorators ++ [target.found, value.join]))

/-- The parameters of a function.  A comment in front of the first one stands in its place. -/
def parameters : Reader (FunctionShape × Found) := do
  symbol "("
  let comments ← comments
  let parameters ← option (separated (parameter r) (symbol ","))
  symbol ")"
  let parameters := parameters.getD []
  return (⟨if comments.isEmpty then (parameters.map Prod.fst).head? else none⟩,
    firstOf (parameters.map Prod.snd))

/-- Statements between braces. -/
def block : Reader Found := do
  symbol "\x7b"
  let statements ← many r.statement
  symbol "\x7d"
  return firstOf (statements.map Prod.snd)

end Grammar

end ComponentDocs.Source
