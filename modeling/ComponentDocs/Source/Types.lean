import ComponentDocs.Source.Grammar

/-!
# Types

Reading types, of which the shape at the top is kept, and the bodies of interfaces and object
types.  The operators bind in this order, tightest first: `[]`, `keyof`, `&`, `|`, the conditional;
a function type and `readonly` reach as far as they can.
-/

namespace ComponentDocs.Source.Grammar

open Reader

variable (r : Rules)

/-! ## Bodies -/

/-- An index signature or the clause of a mapped type. -/
def indexMember : Reader Unit := do
  let _ ← option (symbol "+" <|> symbol "-")
  let _ ← option (keyword "readonly")
  symbol "["
  let _ ← word
  (do symbol ":"
      let _ ← r.type) <|>
    (do keyword "in"
        let _ ← r.type
        let _ ← option (keyword "as" *> r.type))
  symbol "]"
  let _ ← option (symbol "+" <|> symbol "-")
  let _ ← option (symbol "?")
  let _ ← option (typeClause r)

/-- The parameters and result of a method without a body. -/
def signature : Reader Unit := do
  let _ ← option (typeParameters r)
  let _ ← parameters r
  let _ ← option (returnClause r)

/-- A member of a body: a property or anything else. -/
inductive Member where
  | property (signature : PropertySignature)
  | other

/-- A property or method. -/
def namedMember : Reader Member := do
  let _ ← many (modifier r ["public", "private", "protected", "static", "override", "readonly",
    "declare", "get", "set", "async"])
  let _ ← option (symbol "*")
  let name ← textOf (propertyName r)
  let optional ← accepts (symbol "?")
  if ← ahead (symbol "(" <|> symbol "<") then
    signature r
    return .other
  let type ← option (do
    symbol ":"
    let comments ← comments
    let type ← textOf r.type
    return (comments.head?.map Comment.text).getD type)
  return .property ⟨name, optional, type⟩

/-- A member of an interface or object type. -/
def member : Reader Member :=
  giving .other (indexMember r) <|> giving .other (signature r) <|>
    giving .other (keyword "new" *> signature r) <|> namedMember r

/-- The comments in front of the next token, as items of a body. -/
def commentItems : Reader (List BodyItem) := do
  return (← comments).map fun c => .comment c.text c.line

/-- A member with the comments around it, and the mark that separates it from the next one. -/
def bodyEntry : Reader (List BodyItem) := do
  let before ← commentItems
  let line := (← here).line
  let member ← member r
  let lastLine ← lastLine
  let item : BodyItem := match member with
    | .property signature => .property signature line lastLine
    | .other => .other line lastLine
  let after ← commentItems
  if ← accepts (symbol ";" <|> symbol ",") then return before ++ item :: after
  impliedSemicolon false
  return before ++ [item]

/-- The items between the braces of an interface or object type. -/
def body : Reader (List BodyItem) := do
  symbol "\x7b"
  let before ← commentItems
  let leading ← accepts (symbol ";" <|> symbol ",")
  let entries ← many (bodyEntry r)
  let last ← commentItems
  symbol "\x7d"
  return (if leading then before else []) ++ entries.flatten ++ last

/-! ## Operands -/

/-- The names of the built-in types, on which nothing can be built. -/
def builtIn : List String :=
  ["any", "number", "boolean", "string", "symbol", "void", "unknown", "never", "object",
    "undefined", "null", "true", "false", "this"]

/-- A dotted name, given by how many names it has. -/
def dottedName : Reader Nat := do
  let _ ← word
  let rest ← many (symbol "." *> word)
  return rest.length + 1

/-- A named type, with or without type arguments. -/
def namedType : Reader BaseType := do
  let (names, text) ← withText dottedName
  let arguments ← option (typeArguments r)
  return match names, arguments with
    | 1, _ => .named text
    | _, none => .qualified text
    | _, some _ => .qualifiedGeneric

/-- A function or constructor type. -/
def functionType : Reader Unit := do
  let _ ← option (option (keyword "abstract") *> keyword "new")
  let _ ← option (typeParameters r)
  let _ ← parameters r
  symbol "=>"
  resultType r

/-- An element of a tuple type. -/
def tupleElement : Reader Unit :=
  (do let _ ← option (symbol "...")
      let _ ← word
      let _ ← option (symbol "?")
      symbol ":"
      let _ ← r.type) <|>
  (do let _ ← option (symbol "...")
      let _ ← r.type
      let _ ← option (symbol "?"))

/-- A tuple type. -/
def tupleType : Reader Unit := do
  symbol "["
  let _ ← option (separated (tupleElement r) (symbol ","))
  symbol "]"

/-- The type of a value: its name with members, or an imported module. -/
def valueType : Reader Unit := do
  keyword "typeof"
  (do keyword "import"
      symbol "("
      let _ ← expression r
      symbol ")") <|> (do let _ ← word)
  let _ ← many ((symbol "." *> (privateName <|> do let _ ← word)) <|>
    (sameLine *> symbol "[" *> (do let _ ← r.type) <* symbol "]"))
  let _ ← option (typeArguments r)

/-- A type from a module that is named in place. -/
def importedType : Reader Unit := do
  keyword "import"
  symbol "("
  let _ ← separated r.type (symbol ",")
  symbol ")"
  let _ ← many (symbol "." *> word)
  let _ ← option (typeArguments r)

/-- A type without operators. -/
def simpleType : Reader TypeShape := do
  match (← upcoming).head? with
  | some '(' =>
    symbol "("
    let inner ← r.type
    symbol ")"
    return .combined [inner]
  | some '\x7b' => return .object (← body r)
  | some '[' => giving .other (tupleType r)
  | some '\x60' => giving .other (Literal.template r.type)
  | some '"' | some '\'' => giving .other Literal.string
  | some '-' => giving .other (symbol "-" *> Literal.number)
  | some c =>
    if c.isDigit || c == '.' then return ← giving .other Literal.number
    match ← peekWord with
    | "typeof" => giving .other (valueType r)
    | "import" => giving .other (importedType r)
    | "unique" =>
      giving .other (keyword "unique" *> keyword "symbol") <|> (.base <$> namedType r)
    | w =>
      if builtIn.contains w then giving .other word else .base <$> namedType r
  | none => failure

/-- A type with `[]` and index accesses after it, which start on the line where it ends. -/
def postfixType : Reader TypeShape := do
  let shape ← simpleType r
  let accesses ← many (sameLine *> symbol "[" *> option r.type <* symbol "]")
  return if accesses.isEmpty then shape else .other

/-- A type that is inferred, with its bound; `infer` before a question mark is the subject of a
condition. -/
def inferredType : Reader Unit := do
  keyword "infer"
  let _ ← word
  let _ ← option (keyword "extends" *> r.type <* refuse (symbol "?"))

/-- An operand of `&`. -/
def operandType : Reader TypeShape :=
  giving .other (functionType r) <|> giving .other (keyword "readonly" *> r.type) <|>
    giving .other (inferredType r) <|>
    (do let operators ← many (keyword "keyof")
        let shape ← postfixType r
        return if operators.isEmpty then shape else .other) <|>
    postfixType r

/-- Types joined by `&`. -/
def intersection : Reader TypeShape := do
  let leading ← accepts (symbol "&")
  let first ← operandType r
  let rest ← many (symbol "&" *> operandType r)
  return if leading || !rest.isEmpty then .combined (first :: rest) else first

/-- Types joined by `|`. -/
def union : Reader TypeShape := do
  let leading ← accepts (symbol "|")
  let first ← intersection r
  let rest ← many (symbol "|" *> intersection r)
  return if leading || !rest.isEmpty then .other else first

/-- A type. -/
def type : Reader TypeShape := do
  let subject ← union r
  let conditional ← accepts (do
    keyword "extends"
    let _ ← union r
    symbol "?"
    let _ ← r.type
    symbol ":"
    let _ ← r.type)
  return if conditional then .other else subject

/-! ## Declarations -/

/-- An interface. -/
def interface : Reader Declaration := do
  keyword "interface"
  let name ← word
  let _ ← option (typeParameters r)
  let bases ← option (keyword "extends" *> separated (namedType r) (symbol ","))
  let items ← body r
  return ⟨name, [items], bases.getD []⟩

/-- A type alias. -/
def typeAlias : Reader Declaration := do
  keyword "type"
  let name ← word
  let _ ← option (typeParameters r)
  symbol "="
  let shape ← r.type
  semicolon false
  return ⟨name, shape.bodies, shape.bases⟩

end ComponentDocs.Source.Grammar
