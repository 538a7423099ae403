import ComponentDocs.Naming
import ComponentDocs.Source.Elements
import ComponentDocs.Source.Statements

/-!
# Source files

Reading a whole source file: its imports, its exports and all other statements at its top.
`Module.ofText` always has a result; a line where no statement can be read is passed over.
-/

namespace ComponentDocs.Source

/-- The top-level statements of a source file. -/
structure Module where
  statements : List Statement
  deriving Repr

namespace Grammar

open Reader

variable (r : Rules)

/-! ## Imports -/

/-- A name in the braces of an import, by its local and its exported name. -/
def importedName : Reader (String × String) := do
  let moduleName := word <|> textOf Literal.string
  let renamed : Reader (String × String) := do
    let exported ← moduleName
    keyword "as"
    return (← word, exported)
  let plain : Reader (String × String) := do
    let name ← moduleName
    return (name, name)
  let last := expect (symbol "," <|> symbol "\x7d")
  (renamed <* last) <|> (plain <* last) <|>
    (keyword "type" *> ((renamed <* last) <|> (plain <* last)))

/-- The names in the braces of an import. -/
def importedNames : Reader (List (String × String)) := do
  symbol "\x7b"
  let names ← option (separated importedName (symbol ","))
  symbol "\x7d"
  return names.getD []

/-- What an import names before its `from`. -/
def importClause : Reader (List (String × String)) :=
  let whole := symbol "*" *> keyword "as" *> word
  giving [] whole <|> importedNames <|> do
    let _ ← word
    (symbol "," *> (giving [] whole <|> importedNames)) <|> pure []

/-- The attributes of an imported module. -/
def importAttributes : Reader Unit := do
  let _ ← option (sameLine *> oneOf ["with", "assert"] *> object r)

/-- The module from which an import takes its names. -/
def importSource : Reader String := do
  let specifier ← textOf Literal.string
  importAttributes r
  semicolon true
  return Naming.unquote specifier

/-- An import. -/
def importStatement : Reader Import := do
  keyword "import"
  (do return ⟨some (← importSource r), []⟩) <|>
    (do let names ← importClause <* keyword "from"
        return ⟨some (← importSource r), names⟩) <|>
    (do let _ ← oneOf ["type", "typeof"]
        let names ← importClause <* keyword "from"
        return ⟨some (← importSource r), names⟩) <|>
    (do let _ ← option (keyword "type" <* expect word)
        let _ ← word
        symbol "="
        keyword "require"
        symbol "("
        Literal.string
        symbol ")"
        semicolon true
        return ⟨none, []⟩)

/-! ## Exports -/

/-- The end of an export that takes names from a module. -/
def exportSource : Reader Unit := do
  keyword "from"
  let _ ← importSource r

/-- A name in the braces of an export. -/
def exportedName : Reader Unit := do
  let moduleName := giving () word <|> Literal.string
  let _ ← many moduleName

/-- An export that names what is defined elsewhere. -/
def exportNames : Reader Unit :=
  (do symbol "*"
      let _ ← option (keyword "as" *> (giving () word <|> Literal.string))
      exportSource r) <|>
  (do let _ ← option (keyword "type")
      symbol "\x7b"
      let _ ← option (separated exportedName (symbol ","))
      symbol "\x7d"
      exportSource r <|> semicolon true) <|>
  (do let _ ← option (keyword "type")
      symbol "*"
      let _ ← option (keyword "as" *> word)
      exportSource r) <|>
  (do symbol "="
      let _ ← expressions r true
      semicolon true) <|>
  (do keyword "as"
      keyword "namespace"
      let _ ← word
      semicolon false)

/-- The value of a default export.  A function or class here may lack a name, and a function
without one defines nothing else than itself. -/
def defaultValue : Reader Definition :=
  (Prod.fst <$> functionDefinition r) <|>
  giving .other (functionSignature r) <|>
  giving .other (classDefinition r) <|>
  (Definition.type <$> interface r) <|>
  giving .other (enumeration r) <|>
  giving .other (expressions r true <* semicolon true)

/-- An export. -/
def exportStatement : Reader Statement := do
  let _ ← many (decorator r)
  keyword "export"
  (do keyword "default"
      return .exporting true (some (← defaultValue r))) <|>
    (do exportNames r
        return .exporting false none) <|>
    giving (.exporting false (some .other)) (ambient (definition r)) <|>
    (do let (d, _) ← definition r
        return .exporting false (some d))

/-! ## Whole files -/

/-- A statement inside another one.  Imports and exports may stand there too, for a namespace has
its own; they count for nothing outside of it. -/
def innerStatement : Reader (Definition × Found) :=
  giving (.other, none) (importStatement r) <|> giving (.other, none) (exportStatement r) <|>
    statement r

/-- The productions tied together, with a bound on how deep they call each other. -/
def rules (elements : Bool) : Nat → Rules
  | 0 => ⟨elements, failure, fun _ _ => failure, failure, failure, failure⟩
  | n + 1 =>
    { elements
      type := fun c => type (rules elements n) c
      assignment := fun inOperator annotated c =>
        assignment (rules elements n) inOperator annotated c
      target := fun c => target (rules elements n) c
      element := fun c => element (rules elements n) c
      statement := fun c => innerStatement (rules elements n) c }

/-- A statement at the top of a file. -/
def topStatement : Reader Statement :=
  (Statement.importing <$> importStatement r) <|> exportStatement r <|>
    (do let (d, _) ← statement r
        return .defining d)

/-- The rest of a line on which no statement could be read. -/
def skipLine : Reader Unit := do
  skipGap
  let cs ← upcoming
  if cs.isEmpty then failure
  advance ((cs.takeWhile (· != '\n')).length + 1)

/-- All statements of a file. -/
def topStatements : Reader (List Statement) := do
  let statements ← many ((some <$> topStatement r) <|> giving none skipLine)
  return statements.reduceOption

end Grammar

/-- The text after a first line that names an interpreter. -/
def withoutInterpreter (cs : List Char) : List Char :=
  if "#!".toList.isPrefixOf cs then cs.dropWhile (· != '\n') else cs

/-- The module that a text holds, with or without elements in angle brackets.  Productions call
each other a bounded number of times between two characters. -/
def Module.ofText (elements : Bool) (text : String) : Module :=
  let cs := withoutInterpreter text.toList
  let start := Cursor.start cs
  match Grammar.topStatements (Grammar.rules elements (4 * (cs.length + 2))) start with
  | some (statements, _) => ⟨statements⟩
  | none => ⟨[]⟩

end ComponentDocs.Source
