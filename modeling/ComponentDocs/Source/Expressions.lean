import ComponentDocs.Source.Grammar

/-!
# Expressions

Reading expressions for their extent and for the first function in them.  How operators bind does
not matter for either, so operands and operators are read as one flat chain.
-/

namespace ComponentDocs.Source.Grammar

open Reader

variable (r : Rules)

/-! ## Functions -/

/-- The parameters, result and body of a function, and the first function within. -/
def functionRest : Reader (FunctionShape × Found) := do
  let _ ← option (typeParameters r)
  let (shape, inParameters) ← parameters r
  let _ ← option (returnClause r)
  let inBody ← block r
  return (shape, firstOf [inParameters, inBody])

/-- A function after its keyword.  A generator does not count as a function, but what it contains
does. -/
def functionExpression : Reader Found := do
  let _ ← option (keyword "async" <* sameLine)
  keyword "function"
  let generator ← accepts (symbol "*")
  let _ ← option word
  let (shape, inner) ← functionRest r
  return if generator then inner else some shape

/-- An arrow function, with a return annotation only where asked for. -/
def arrow (inOperator annotated : Bool) : Reader Found := do
  let _ ← option (keyword "async" <* sameLine <* refuse (symbol "=>"))
  let shape ← giving ⟨none⟩ name <|> do
    let _ ← option (typeParameters r)
    let (shape, _) ← parameters r
    if annotated then let _ ← option (returnClause r)
    return shape
  sameLine
  symbol "=>"
  let _ ← block r <|> r.assignment inOperator true
  return some shape

/-- The arguments of a call. -/
def arguments : Reader Found := do
  symbol "("
  let found ← option (separated (option (symbol "...") *> expression r) (symbol ","))
  symbol ")"
  return firstOf (found.getD [])

/-! ## Literals with parts -/

/-- An array. -/
def array : Reader Found := do
  symbol "["
  let found ← many (giving none (symbol ",") <|> (option (symbol "...") *> expression r))
  symbol "]"
  return firstOf found

/-- A method of an object or class, which does not count as a function itself. -/
def method : Reader Found := do
  let _ ← many (modifier r ["get", "set", "async", "static", "public", "private", "protected",
    "override", "readonly", "abstract", "declare", "accessor"])
  let _ ← option (symbol "*")
  let inName ← propertyName r
  let _ ← option (symbol "?")
  let (_, inner) ← functionRest r
  return firstOf [inName, inner]

/-- A member of an object. -/
def objectMember : Reader Found :=
  (symbol "..." *> expression r) <|> method r <|>
    (do let inName ← propertyName r
        symbol ":"
        let value ← expression r
        return firstOf [inName, value]) <|>
    (do let _ ← word
        return (← option (symbol "=" *> expression r)).join)

/-- An object. -/
def object : Reader Found := do
  symbol "\x7b"
  let members ← option (separated (objectMember r) (symbol ","))
  symbol "\x7d"
  return firstOf (members.getD [])

/-- A member of a class. -/
def classMember : Reader Found :=
  giving none (symbol ";") <|> (keyword "static" *> block r) <|> do
    let decorators ← many (decorator r)
    let inner ← method r <|> do
      let _ ← many (modifier r ["get", "set", "async", "static", "public", "private", "protected",
        "override", "readonly", "abstract", "declare", "accessor"])
      let inName ← giving none (do
          symbol "["
          let _ ← word
          symbol ":"
          let _ ← r.type
          symbol "]") <|> propertyName r
      let _ ← option (symbol "?" <|> symbol "!")
      if ← ahead (symbol "(" <|> symbol "<") then
        -- a method without a body
        let _ ← option (typeParameters r)
        let (_, inParameters) ← parameters r
        let _ ← option (returnClause r)
        semicolon false
        return firstOf [inName, inParameters]
      let _ ← option (typeClause r)
      let value ← option (symbol "=" *> expression r)
      semicolon value.isSome
      return firstOf [inName, value.join]
    return firstOf (decorators ++ [inner])

/-- The parts of an operand that follow it directly: members, calls, templates and marks. -/
def postfixPart : Reader Found :=
  (symbol "?." *> (arguments r <|> (symbol "[" *> expressions r true <* symbol "]") <|>
    giving none (privateName <|> do let _ ← word) <|> (typeArguments r *> arguments r))) <|>
  giving none (refuse (symbol "...") *> symbol "." *> (privateName <|> do let _ ← word)) <|>
  (symbol "[" *> expressions r true <* symbol "]") <|>
  arguments r <|>
  (firstOf <$> Literal.template (expressions r true)) <|>
  giving none (sameLine *> (symbol "++" <|> symbol "--" <|>
    (refuse (symbol "!=") *> symbol "!"))) <|>
  giving none (typeArguments r <* expect (symbol "(" <|> symbol "`" <|> symbol ")" <|>
    symbol "]" <|> symbol ":" <|> symbol ";" <|> symbol "," <|> symbol "." <|> symbol "?." <|>
    symbol "\x7d" <|> symbol "==" <|> symbol "!=" <|> impliedSemicolon true))

/-- The class that another one extends, with its members and calls. -/
def superclass (operand : Reader Found) : Reader Found := do
  let first ← operand
  let parts ← many (refuse (symbol "\x7b") *> postfixPart r)
  let _ ← option (typeArguments r)
  return firstOf (first :: parts)

/-- A class after its keyword, given how to read a simple operand. -/
def classExpression (operand : Reader Found) : Reader Found := do
  keyword "class"
  let _ ← option (do
    let w ← name
    if w == "implements" then failure)
  let _ ← option (typeParameters r)
  let base ← option (keyword "extends" *> superclass r operand)
  let _ ← option (keyword "implements" *> separated r.type (symbol ","))
  symbol "\x7b"
  let members ← many (classMember r)
  symbol "\x7d"
  return firstOf (base.join :: members)

/-! ## Operands -/

/-- An operand without operators, members or calls.  The number bounds the nesting of superclasses
without brackets. -/
def simpleOperand : Nat → Reader Found
  | 0 => failure
  | n + 1 => do
    match (← upcoming).head? with
    | some '(' => symbol "(" *> expressions r true <* symbol ")"
    | some '[' => array r
    | some '\x7b' => object r
    | some '\x60' => firstOf <$> Literal.template (expressions r true)
    | some '"' | some '\'' => giving none Literal.string
    | some '/' => giving none Literal.regex
    | some '<' => if r.elements then r.element else failure
    | some '#' => giving none privateName
    | some '@' =>
      let decorators ← many (decorator r)
      let inner ← classExpression r (simpleOperand n)
      return firstOf (decorators ++ [inner])
    | some c =>
      if c.isDigit || c == '.' then return ← giving none Literal.number
      match ← peekWord with
      | "function" => functionExpression r
      | "async" => functionExpression r <|> giving none word
      | "class" => classExpression r (simpleOperand n)
      | "this" | "super" | "null" | "true" | "false" | "import" => giving none word
      | _ => giving none name
    | none => failure

/-- An operand with its members and calls. -/
def operand : Reader Found := do
  let first ← simpleOperand r ((← here).left + 1)
  let parts ← many (postfixPart r)
  return firstOf (first :: parts)

/-- An operator in front of an operand. -/
def prefixOperator : Reader Unit := do
  match (← upcoming).head? with
  | some '!' => symbol "!"
  | some '~' => symbol "~"
  | some '+' => symbol "++" <|> symbol "+"
  | some '-' => symbol "--" <|> symbol "-"
  | some '<' =>
    if r.elements then failure
    symbol "<"
    let _ ← r.type
    symbol ">"
  | _ =>
    let _ ← oneOf ["typeof", "void", "delete", "await"] <* refuse (symbol "=" <|> symbol ")" <|>
      symbol "," <|> symbol ";" <|> symbol ".")
    return

/-- An operand with the operators in front of it.  After `new` stands the class, perhaps with
members, and perhaps no arguments. -/
def prefixedOperand : Reader Found := do
  let _ ← many (prefixOperator r <|> (keyword "new" <* refuse (symbol ".")))
  (giving none (keyword "new" *> symbol "." *> word)) <|> operand r

/-- The operators between two operands, longer ones first. -/
def binaryOperators : List String :=
  ["===", "!==", "==", "!=", "**", "*", "/", "%", ">>>", ">>", "<<", ">=", "<=", "<", ">", "+", "-",
    "&&", "||", "??", "&", "|", "^"]

/-- The operators that assign. -/
def assignmentOperators : List String :=
  [">>>=", "<<=", ">>=", "**=", "&&=", "||=", "??=", "+=", "-=", "*=", "/=", "%=", "&=", "|=", "^=",
    "="]

/-- One of several symbols. -/
def anySymbol : List String → Reader Unit
  | [] => failure
  | s :: rest => symbol s <|> anySymbol rest

/-- An assignment and the expression assigned. -/
def assignmentPart (inOperator : Bool) : Reader Found := do
  refuse (symbol "==" <|> symbol "=>")
  anySymbol assignmentOperators
  r.assignment inOperator true

/-- A choice: its question mark, the two expressions and the colon between them.  If no colon is
left after the first expression, that is read without a return annotation. -/
def choicePart (inOperator : Bool) : Reader Found := do
  refuse (symbol "?." <|> symbol "??")
  symbol "?"
  let first ← (r.assignment true true <* symbol ":") <|> (r.assignment true false <* symbol ":")
  let second ← r.assignment inOperator true
  return firstOf [first, second]

/-- An operator and what stands on its right. -/
def operatorPart (inOperator : Bool) : Reader Found :=
  choicePart r inOperator <|> assignmentPart r inOperator <|>
  (anySymbol binaryOperators *> prefixedOperand r) <|>
  (do let w ← oneOf ["in", "instanceof"]
      if w == "in" && !inOperator then failure
      prefixedOperand r) <|>
  giving none (do
    sameLine
    let _ ← oneOf ["as", "satisfies"]
    keyword "const" <|> giving () r.type)

/-- An expression without commas. -/
def assignment (inOperator annotated : Bool) : Reader Found :=
  arrow r inOperator annotated <|>
  (do keyword "yield"
      let _ ← option (symbol "*")
      return (← option (sameLine *> r.assignment inOperator true)).join) <|>
  (do let first ← prefixedOperand r
      let parts ← many (operatorPart r inOperator)
      return firstOf (first :: parts))

end ComponentDocs.Source.Grammar
