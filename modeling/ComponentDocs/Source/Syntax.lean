/-!
# What is read from a source file

A source file is kept as the list of its top-level statements, reduced to what documentation needs:
interfaces and type aliases with the items of their bodies and the types they build on, imports
and exports, and for functions the destructuring pattern of the first parameter.  Everything else
is only told apart as something else.
-/

namespace ComponentDocs.Source

/-- A property in an interface or object type, its parts as written. -/
structure PropertySignature where
  /-- The name, with its quotation marks if it has any. -/
  name : String
  /-- Whether a question mark follows the name. -/
  optional : Bool
  /-- The first thing after the colon: a type or a comment in front of it. -/
  type : Option String
  deriving DecidableEq, Repr

/-- An item of an interface or object type body, with the line numbers that it spans. -/
inductive BodyItem where
  | comment (text : String) (line : Nat)
  | property (signature : PropertySignature) (line lastLine : Nat)
  /-- A method, an index signature, or any other member. -/
  | other (line lastLine : Nat)
  deriving DecidableEq, Repr

/-- A type that a declaration builds on. -/
inductive BaseType where
  /-- A plain name, with or without type arguments. -/
  | named (name : String)
  /-- A dotted name without type arguments, as written. -/
  | qualified (text : String)
  /-- A dotted name with type arguments. -/
  | qualifiedGeneric
  deriving DecidableEq, Repr

/-- The shape of a type: an object type, a name, parts joined by `&` or standing in parentheses,
or anything else. -/
inductive TypeShape where
  | object (body : List BodyItem)
  | base (base : BaseType)
  | combined (parts : List TypeShape)
  | other

mutual

/-- The bodies of the object types that a type is combined from. -/
def TypeShape.bodies : TypeShape → List (List BodyItem)
  | .object body => [body]
  | .combined parts => bodiesOfParts parts
  | _ => []

/-- The bodies in a list of parts. -/
def bodiesOfParts : List TypeShape → List (List BodyItem)
  | [] => []
  | part :: rest => part.bodies ++ bodiesOfParts rest

end

mutual

/-- The names that a type is combined from. -/
def TypeShape.bases : TypeShape → List BaseType
  | .base base => [base]
  | .combined parts => basesOfParts parts
  | _ => []

/-- The names in a list of parts. -/
def basesOfParts : List TypeShape → List BaseType
  | [] => []
  | part :: rest => part.bases ++ basesOfParts rest

end

/-- An interface or type alias. -/
structure Declaration where
  name : String
  bodies : List (List BodyItem)
  bases : List BaseType
  deriving DecidableEq, Repr

/-- An element of an object pattern; values are as written. -/
inductive PatternElement where
  /-- The element `name = value`. -/
  | shorthand (name value : String)
  /-- The element `key: target = value`. -/
  | renamed (key value : String)
  /-- An element without a value of its own. -/
  | plain
  deriving DecidableEq, Repr

/-- A parameter: the elements of its pattern if that is an object pattern, and its type annotation
as written, colon included. -/
structure Parameter where
  pattern : Option (List PatternElement)
  typeClause : Option String
  deriving DecidableEq, Repr

/-- A function or arrow function, of which only the first parameter matters. -/
structure FunctionShape where
  firstParameter : Option Parameter
  deriving DecidableEq, Repr

/-- One variable of a declaration. -/
structure Declarator where
  /-- The variable or pattern, as written. -/
  name : String
  /-- The type annotation as written, colon included. -/
  typeClause : Option String
  /-- The first function in the initial value. -/
  earliestFunction : Option FunctionShape
  deriving DecidableEq, Repr

/-- What a statement defines. -/
inductive Definition where
  | type (declaration : Declaration)
  | function (name : Option String) (shape : FunctionShape)
  | bindings (declarators : List Declarator)
  | other
  deriving DecidableEq, Repr

/-- An import statement.  Each named import is given by its local and its exported name. -/
structure Import where
  specifier : Option String
  names : List (String × String)
  deriving DecidableEq, Repr

/-- A top-level statement. -/
inductive Statement where
  | importing (clause : Import)
  | exporting (isDefault : Bool) (definition : Option Definition)
  | defining (definition : Definition)
  deriving DecidableEq, Repr

end ComponentDocs.Source
