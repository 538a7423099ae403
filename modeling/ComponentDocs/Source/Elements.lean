import ComponentDocs.Source.Grammar

/-!
# Elements

Reading elements in angle brackets, whose text runs up to the next bracket or brace and in which
two slashes open no comment.
-/

namespace ComponentDocs.Source.Grammar

open Reader

variable (r : Rules)

/-- A part of an element's name. -/
def elementWord : Reader Unit := do
  let _ ← word
  let _ ← many (Literal.exactly "-" *> fun c =>
    some ((), c.advance (c.rest.takeWhile continuesName).length))

/-- The name of an element or attribute: words with hyphens, joined by points or colons. -/
def elementName : Reader Unit := do
  elementWord
  let _ ← many ((symbol "." <|> symbol ":") *> elementWord)

/-- A string without escapes. -/
def attributeString : Reader Unit := do
  skipGap
  match ← upcoming with
  | c :: rest =>
    let inner := rest.takeWhile (· != c)
    if (c == '"' || c == '\'') && inner.length < rest.length then advance (inner.length + 2)
    else failure
  | [] => failure

/-- Braces around an expression, around a spread one or around nothing. -/
def container : Reader Found := do
  symbol "\x7b"
  let _ ← option (symbol "...")
  let found ← option (expressions r true)
  symbol "\x7d"
  return found.join

/-- An attribute. -/
def elementAttribute : Reader Found := container r <|> do
  elementName
  let value ← option (symbol "=" *> (container r <|> giving none attributeString <|> r.element))
  return value.join

/-- The plain text in an element up to the next bracket or brace. -/
def elementText : Reader Unit := fun c =>
  some ((), c.advance (c.rest.takeWhile fun c => c != '<' && c != '\x7b').length)

/-- What stands between the tags of an element, with the opening bracket of the closing tag. -/
def children : Reader Found := do
  elementText
  let found ← many ((container r <|> (refuse (symbol "</") *> r.element)) <* elementText)
  return firstOf found

/-- An element with its closing tag, or one that closes itself.  The tags may lack a name. -/
def element : Reader Found := do
  symbol "<"
  let named ← accepts elementName
  let _ ← option (typeArguments r)
  let attributes ← if named then many (elementAttribute r) else pure []
  if ← accepts (symbol "/" *> symbol ">") then return firstOf attributes
  symbol ">"
  let inner ← children r
  symbol "<"
  symbol "/"
  let _ ← option elementName
  symbol ">"
  return firstOf (attributes ++ [inner])

end ComponentDocs.Source.Grammar
