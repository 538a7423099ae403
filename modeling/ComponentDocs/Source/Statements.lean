import ComponentDocs.Source.Expressions
import ComponentDocs.Source.Types

/-!
# Statements

Reading statements: what they define, and the first function in them.
-/

namespace ComponentDocs.Source.Grammar

open Reader

variable (r : Rules)

/-! ## Definitions -/

/-- One variable of a declaration, with the first function in its pattern and value. -/
def declarator (inOperator : Bool) : Reader (Declarator × Found) := do
  let (target, name) ← withText r.target
  let _ ← option (symbol "!")
  let type ← option (typeClause r)
  let value ← option (refuse (symbol "==" <|> symbol "=>") *> symbol "=" *>
    r.assignment inOperator true)
  return (⟨name, type, value.join⟩, firstOf [target.found, value.join])

/-- The variables of a declaration, without its end. -/
def bindingList (inOperator : Bool) : Reader (Definition × Found) := do
  let _ ← oneOf ["const", "let", "var"]
  refuse (keyword "enum")
  let first ← declarator r inOperator
  let rest ← many (symbol "," *> declarator r inOperator)
  let all := first :: rest
  return (.bindings (all.map Prod.fst), firstOf (all.map Prod.snd))

/-- A function with a body; a generator is something else. -/
def functionDefinition : Reader (Definition × Found) := do
  let _ ← option (keyword "async" <* sameLine)
  keyword "function"
  let generator ← accepts (symbol "*")
  let name ← option word
  let (shape, inner) ← functionRest r
  return if generator then (.other, inner) else (.function name shape, some shape)

/-- The head of a function without a body. -/
def functionSignature : Reader Unit := do
  let _ ← option (keyword "async" <* sameLine)
  keyword "function"
  let _ ← option (symbol "*")
  let _ ← option word
  signature r
  semicolon false

/-- A class. -/
def classDefinition : Reader Found := do
  let decorators ← many (decorator r)
  let _ ← option (keyword "abstract" <* sameLine)
  let inner ← classExpression r (simpleOperand r ((← here).left + 1))
  return firstOf (decorators ++ [inner])

/-- An enumeration. -/
def enumeration : Reader Found := do
  let _ ← option (keyword "const")
  keyword "enum"
  let _ ← word
  symbol "\x7b"
  let members ← option (separated (do
    let inName ← propertyName r
    let value ← option (symbol "=" *> expression r)
    return firstOf [inName, value.join]) (symbol ","))
  symbol "\x7d"
  return firstOf (members.getD [])

/-- A namespace or the declaration of a module. -/
def moduleBlock : Reader Found := do
  (do keyword "global") <|> (do
    let _ ← oneOf ["namespace", "module"]
    sameLine
    giving () dottedName <|> Literal.string)
  (block r) <|> giving none (semicolon false)

/-- The definition of something: a type, variables, a function, a class and so on. -/
def definition : Reader (Definition × Found) :=
  ((fun d => (.type d, none)) <$> (interface r <|> typeAlias r)) <|>
  (bindingList r true <* semicolon true) <|>
  functionDefinition r <|>
  giving (.other, none) (functionSignature r) <|>
  ((Definition.other, ·) <$> (classDefinition r <|> enumeration r <|> moduleBlock r)) <|>
  giving (.other, none) (do
    keyword "import"
    let _ ← word
    symbol "="
    let _ ← dottedName
    refuse (symbol "(")
    semicolon true)

/-- A definition without a body, of something that exists elsewhere. -/
def ambient (definition : Reader (Definition × Found)) : Reader Found := do
  keyword "declare"
  sameLine
  Prod.snd <$> definition

/-! ## Control -/

/-- Parentheses around an expression. -/
def condition : Reader Found := symbol "(" *> expressions r true <* symbol ")"

/-- A statement in another one. -/
def inner : Reader Found := Prod.snd <$> r.statement

/-- The clauses of a loop in their parentheses. -/
def loopClauses : Reader Found := do
  symbol "("
  let found ← (do
      let start ← option ((Prod.snd <$> bindingList r false) <|> expressions r false)
      symbol ";"
      let test ← option (expressions r true)
      symbol ";"
      let step ← option (expressions r true)
      return firstOf [start.join, test.join, step.join]) <|>
    (do let start ← (do
          let _ ← oneOf ["const", "let", "var"]
          Target.found <$> r.target) <|> operand r
        let _ ← oneOf ["of", "in"]
        let whole ← expressions r true
        return firstOf [start, whole])
  symbol ")"
  return found

/-- A clause of a switch. -/
def switchClause : Reader Found := do
  let test ← (keyword "case" *> expressions r true) <|> giving none (keyword "default")
  symbol ":"
  let statements ← many (refuse (keyword "case" <|> (keyword "default" <* symbol ":")) *>
    inner r)
  return firstOf (test :: statements)

/-- Statements that steer the flow of control. -/
def control : Reader Found := do
  match ← word with
  | "if" =>
    let test ← condition r
    let first ← inner r
    let second ← option (keyword "else" *> inner r)
    return firstOf [test, first, second.join]
  | "for" =>
    let _ ← option (keyword "await")
    let clauses ← loopClauses r
    return firstOf [clauses, ← inner r]
  | "while" | "with" =>
    let test ← condition r
    return firstOf [test, ← inner r]
  | "do" =>
    let first ← inner r
    keyword "while"
    let test ← condition r
    let _ ← option (symbol ";")
    return firstOf [first, test]
  | "try" =>
    let first ← block r
    let second ← option (do
      keyword "catch"
      let _ ← option (do
        symbol "("
        let _ ← r.target
        let _ ← option (typeClause r)
        symbol ")")
      block r)
    let last ← option (keyword "finally" *> block r)
    return firstOf [first, second.join, last.join]
  | "switch" =>
    let test ← condition r
    symbol "\x7b"
    let clauses ← many (switchClause r)
    symbol "\x7d"
    return firstOf (test :: clauses)
  | "return" | "throw" =>
    let value ← option (sameLine *> expressions r true)
    semicolon true
    return value.join
  | "break" | "continue" =>
    let _ ← option (sameLine *> name)
    semicolon true
    return none
  | "debugger" => giving none (semicolon true)
  | _ => failure

/-- A statement. -/
def statement : Reader (Definition × Found) :=
  ((Definition.other, ·) <$> block r) <|>
  giving (.other, none) (symbol ";") <|>
  ((Definition.other, ·) <$> control r) <|>
  definition r <|>
  ((Definition.other, ·) <$> ambient (definition r)) <|>
  ((Definition.other, ·) <$> ((name *> symbol ":") *> inner r)) <|>
  ((Definition.other, ·) <$> (expressions r true <* semicolon true))

end ComponentDocs.Source.Grammar
