import ComponentDocs.Yaml.Tag
import ComponentDocs.Yaml.Token

/-!
# Nodes of YAML

A document is a tree of nodes: scalars, sequences and mappings, each with its full tag.  An alias
stands for the node with its anchor; inside of that node it is kept as a reference to what
encloses it.
-/

namespace ComponentDocs.Yaml

/-- A node with its tag. -/
inductive Node where
  | scalar (tag text : String)
  | sequence (tag : String) (items : List Node)
  | mapping (tag : String) (entries : List (Node × Node))
  /-- A sequence or mapping that this node stands in. -/
  | enclosing (tag : String) (isMapping : Bool)

namespace Node

instance : Inhabited Node := ⟨.scalar "" ""⟩

/-- The tag of a node. -/
def tag : Node → String
  | scalar t _ => t
  | sequence t _ => t
  | mapping t _ => t
  | enclosing t _ => t

/-- What is known while nodes are read: the tokens left, the handles of tags, and the nodes with
anchors. -/
structure Draft where
  tokens : List Token
  handles : List (String × String)
  anchors : List (String × Node) := []

/-- A step of reading nodes; it fails where the tokens are malformed. -/
abbrev Composing := StateT Draft Option

namespace Composing

/-- The next token. -/
def peek : Composing (Option Token) := do return (← get).tokens.head?

/-- Moves on by a token. -/
def skip : Composing Unit := modify fun d => { d with tokens := d.tokens.tail }

/-- Whether the next token is the given one; if so it is used up. -/
def accepts (t : Token) : Composing Bool := do
  if (← peek) == some t then
    skip
    return true
  return false

/-- Uses up the given token. -/
def expect (t : Token) : Composing Unit := do
  if !(← accepts t) then failure

/-- Whether the next token is one of the given ones, without using it up. -/
def ahead (ts : List Token) : Composing Bool := do
  match ← peek with
  | some t => return ts.contains t
  | none => return false

/-- The anchor and the tag in front of a node, in either order. -/
def properties : Composing (Option String × Option WrittenTag) := do
  match ← peek with
  | some (.anchor name) =>
    skip
    match ← peek with
    | some (.tag t) =>
      skip
      return (some name, some t)
    | _ => return (some name, none)
  | some (.tag t) =>
    skip
    match ← peek with
    | some (.anchor name) =>
      skip
      return (some name, some t)
    | _ => return (none, some t)
  | _ => return (none, none)

/-- The full tag of a written one. -/
def fullTag (t : WrittenTag) : Composing String := do
  match t.handle with
  | none => return t.suffix
  | some handle =>
    match (← get).handles.lookup handle with
    | some start => return start ++ t.suffix
    | none => failure

/-- Gives a node its anchor, which must be new. -/
def bind (anchor : Option String) (node : Node) : Composing Unit := do
  match anchor with
  | none => pure ()
  | some name =>
    modify fun d => { d with
      anchors := (name, node) :: d.anchors.filter fun (other, _) => other != name }

/-- Refuses an anchor that is known. -/
def checkNew (anchor : Option String) : Composing Unit := do
  match anchor with
  | some name => if ((← get).anchors.lookup name).isSome then failure
  | none => pure ()

end Composing

open Composing

/-- A scalar without text, tag and anchor. -/
def empty : Node := .scalar (Tag.ofPlain "") ""

/-- The tag of a scalar: a single exclamation mark asks for the tag of a plain one. -/
def scalarTag (tag : Option String) (plain : Bool) (text : String) : String :=
  match tag with
  | some "!" => Tag.ofPlain text
  | some tag => tag
  | none => if plain then Tag.ofPlain text else Tag.text

/-- The tag of a sequence or mapping. -/
def collectionTag (tag : Option String) (usual : String) : String :=
  match tag with
  | some "!" => usual
  | some tag => tag
  | none => usual

mutual

/-- A node.  Block collections are read only where they may stand, and sequences without
indentation only as values and keys of a block mapping. -/
def node (inBlock indentless : Bool) : Nat → Composing Node
  | 0 => failure
  | fuel + 1 => do
    match ← peek with
    | some (.alias name) =>
      skip
      match (← get).anchors.lookup name with
      | some node => return node
      | none => failure
    | _ =>
      let (anchor, written) ← properties
      let tag ← written.mapM fullTag
      checkNew anchor
      let sequenceTag := collectionTag tag Tag.sequence
      let mappingTag := collectionTag tag Tag.mapping
      let sequence (items : Composing (List Node)) : Composing Node := do
        bind anchor (.enclosing sequenceTag false)
        return .sequence sequenceTag (← items)
      let mapping (entries : Composing (List (Node × Node))) : Composing Node := do
        bind anchor (.enclosing mappingTag true)
        return .mapping mappingTag (← entries)
      let node ← match ← peek with
        | some .entry =>
          if indentless then sequence (indentlessItems fuel)
          else if anchor.isSome || tag.isSome then pure (.scalar (scalarTag tag true "") "")
          else failure
        | some (.scalar text plain) =>
          skip
          pure (.scalar (scalarTag tag plain text) text)
        | some .flowSequenceStart =>
          skip
          sequence (flowItems true fuel)
        | some .flowMappingStart =>
          skip
          mapping (flowEntries true fuel)
        | some .blockSequenceStart =>
          if inBlock then
            skip
            sequence (blockItems fuel)
          else failure
        | some .blockMappingStart =>
          if inBlock then
            skip
            mapping (blockEntries fuel)
          else failure
        | _ =>
          if anchor.isSome || tag.isSome then pure (.scalar (scalarTag tag true "") "")
          else failure
      bind anchor node
      return node

/-- A node, or an empty one before the given tokens. -/
def nodeUnless (stops : List Token) (inBlock indentless : Bool) : Nat → Composing Node
  | 0 => failure
  | fuel + 1 => do
    if ← ahead stops then return empty else node inBlock indentless fuel

/-- The items of a block sequence through its end. -/
def blockItems : Nat → Composing (List Node)
  | 0 => failure
  | fuel + 1 => do
    if ← accepts .entry then
      let item ← nodeUnless [.entry, .blockEnd] true false fuel
      return item :: (← blockItems fuel)
    expect .blockEnd
    return []

/-- The items of a block sequence that is not indented. -/
def indentlessItems : Nat → Composing (List Node)
  | 0 => failure
  | fuel + 1 => do
    if ← accepts .entry then
      let item ← nodeUnless [.entry, .key, .value, .blockEnd] true false fuel
      return item :: (← indentlessItems fuel)
    return []

/-- The entries of a block mapping through its end. -/
def blockEntries : Nat → Composing (List (Node × Node))
  | 0 => failure
  | fuel + 1 => do
    if ← accepts .key then
      let key ← nodeUnless [.key, .value, .blockEnd] true true fuel
      let value ←
        if ← accepts .value then nodeUnless [.key, .value, .blockEnd] true true fuel
        else pure empty
      return (key, value) :: (← blockEntries fuel)
    expect .blockEnd
    return []

/-- The items of a flow sequence through its end.  A key makes a mapping of one entry. -/
def flowItems (first : Bool) : Nat → Composing (List Node)
  | 0 => failure
  | fuel + 1 => do
    if ← accepts .flowSequenceEnd then return []
    if !first then expect .flowEntry
    if ← accepts .flowSequenceEnd then return []
    let item ←
      if ← accepts .key then
        let key ← nodeUnless [.value, .flowEntry, .flowSequenceEnd] false false fuel
        let value ←
          if ← accepts .value then nodeUnless [.flowEntry, .flowSequenceEnd] false false fuel
          else pure empty
        pure (.mapping Tag.mapping [(key, value)])
      else node false false fuel
    return item :: (← flowItems false fuel)

/-- The entries of a flow mapping through its end. -/
def flowEntries (first : Bool) : Nat → Composing (List (Node × Node))
  | 0 => failure
  | fuel + 1 => do
    if ← accepts .flowMappingEnd then return []
    if !first then expect .flowEntry
    if ← accepts .flowMappingEnd then return []
    let entry ←
      if ← accepts .key then
        let key ← nodeUnless [.value, .flowEntry, .flowMappingEnd] false false fuel
        let value ←
          if ← accepts .value then nodeUnless [.flowEntry, .flowMappingEnd] false false fuel
          else pure empty
        pure (key, value)
      else
        let key ← node false false fuel
        pure (key, empty)
    return entry :: (← flowEntries false fuel)

end

/-- The handles of tags that are always known. -/
def usualHandles : List (String × String) := [("!", "!"), ("!!", Tag.standard)]

/-- The handles of tags that directives add to the usual ones. -/
def handlesOf? (directives : List Directive) : Option (List (String × String)) := do
  let versions := directives.filterMap fun
    | .version major _ => some major
    | _ => none
  if 1 < versions.length || versions.any (· != 1) then failure
  let handles := directives.filterMap fun
    | .tagHandle handle start => some (handle, start)
    | _ => none
  if (handles.map Prod.fst).eraseDups.length != handles.length then failure
  return handles ++ usualHandles

/-- The directives at the start. -/
def leadingDirectives (tokens : List Token) : List Directive :=
  (tokens.map fun
    | .directive d => some d
    | _ => none).takeWhile Option.isSome |>.reduceOption

/-- Whether the tokens after a document are at most marks of its end. -/
def endsStream (tokens : List Token) : Bool := tokens.all (· == .documentEnd)

/-- The root of a document, and the tokens after it. -/
def document? (handles : List (String × String)) (tokens : List Token) :
    Option (Node × List Token) := do
  let (root, draft) ← node true false (4 * tokens.length + 4) { tokens, handles }
  return (root, draft.tokens)

/-- The root of the only document of a text, given by its tokens, if they are well-formed; there is
none if there is no document. -/
def ofTokens? (tokens : List Token) : Option (Option Node) := do
  match tokens with
  | [] => return none
  | first :: _ =>
    let explicit := match first with
      | .directive _ | .documentStart => true
      | _ => false
    if explicit then
      let directives := leadingDirectives tokens
      let handles ← handlesOf? directives
      match tokens.drop directives.length with
      | .documentStart :: rest =>
        let ends := match rest.head? with
          | none | some (.directive _) | some .documentStart | some .documentEnd => true
          | _ => false
        let (root, rest) ← if ends then pure (empty, rest) else document? handles rest
        if endsStream rest then return some root else failure
      | _ => failure
    else
      let (root, rest) ← document? usualHandles tokens
      if endsStream rest then return some root else failure

end Node

end ComponentDocs.Yaml
