/-
The nodes of a YAML text: scalars, sequences and mappings, with aliases replaced by what they stand
for. Each reader takes tokens off the front of a list; `depth` bounds how far readers call one
another, which the number of tokens does as well.
-/
import RefPages.Yaml.Token

namespace RefPages.Yaml

/-- A node of a YAML text. -/
inductive Node where
  | scalar (text : List Char) (isPlain : Bool) (tag : Option (List Char))
  | sequence (items : List Node)
  | mapping (entries : List (Node × Node))
  /-- An alias for a node that it is part of. -/
  | cycle
  deriving Repr

/-- What the readers of nodes pass on. -/
structure Feed where
  tokens : List Token
  /-- The short forms for tags. -/
  handles : List (List Char × List Char)
  /-- The nodes that anchors name; none as long as the node is not complete. -/
  anchors : List (List Char × Option Node)

/-- Readers of nodes. -/
abbrev Reader := StateT Feed Option

namespace Reader

/-! ## Tokens -/

/-- The next token, which is left. -/
def peek : Reader (Option Token) := do return (← get).tokens.head?

/-- Leaves out the next token. -/
def advance : Reader Unit := modify fun feed => { feed with tokens := feed.tokens.tail }

/-- Whether the next token is one of several. -/
def sees (tokens : List Token) : Reader Bool := do
  match ← peek with
  | some token => return tokens.contains token
  | none => return false

/-- Leaves out the next token if it is the given one, and says whether it is. -/
def takes (token : Token) : Reader Bool := do
  if ← sees [token] then advance; return true else return false

/-- Leaves out a comma, which must be next. -/
def comma : Reader Unit := do
  unless ← takes .comma do failure

/-! ## Properties of nodes -/

/-- The name of an anchor before a node. -/
def anchor? : Reader (Option (List Char)) := do
  match ← peek with
  | some (.anchor name) => advance; return some name
  | _ => return none

/-- A tag before a node, written out. -/
def tag? : Reader (Option (List Char)) := do
  match ← peek with
  | some (.tag handle suffix) =>
    advance
    if handle.isEmpty then return some suffix
    else
      match (← get).handles.lookup handle with
      | some start => return some (start ++ suffix)
      | none => failure
  | _ => return none

/-- The anchor and the tag before a node, in either order. -/
def properties : Reader (Option (List Char) × Option (List Char)) := do
  match ← anchor? with
  | some name => return (some name, ← tag?)
  | none =>
    let tag ← tag?
    return (← if tag.isSome then anchor? else pure none, tag)

/-- Lets an anchor, if there is one, name a node. -/
def setAnchor (name : Option (List Char)) (node : Option Node) : Reader Unit :=
  match name with
  | some name => modify fun feed => { feed with anchors := (name, node) :: feed.anchors }
  | none => return ()

/-- The node that an alias stands for. -/
def aliased (name : List Char) : Reader Node := do
  match (← get).anchors.lookup name with
  | some node => return node.getD .cycle
  | none => failure

/-- The node where none is written. -/
def emptyNode : Node := .scalar [] true none

/-! ## Nodes -/

mutual

/-- A node. Block collections must be allowed where it stands, and so must sequences that are not
indented further than the mapping around them. -/
def node (depth : Nat) (inBlock atKey : Bool) : Reader Node :=
  match depth with
  | 0 => failure
  | depth + 1 => do
    match ← peek with
    | some (.aliasTo name) => advance; aliased name
    | _ =>
      let (anchor, tag) ← properties
      setAnchor anchor none
      let node ← content depth inBlock atKey anchor tag
      setAnchor anchor (some node)
      return node

/-- A node after its anchor and its tag. -/
def content (depth : Nat) (inBlock atKey : Bool) (anchor tag : Option (List Char)) : Reader Node :=
  match depth with
  | 0 => failure
  | depth + 1 => do
    match ← peek with
    | some (.scalar text isPlain) => advance; return .scalar text isPlain tag
    | some .flowSequence => advance; return .sequence (← flowItems depth true)
    | some .flowMapping => advance; return .mapping (← flowEntries depth true)
    | some .item =>
      if atKey then return .sequence (← alignedItems depth) else absent anchor tag
    | some .blockSequence =>
      if inBlock then advance; return .sequence (← blockItems depth) else absent anchor tag
    | some .blockMapping =>
      if inBlock then advance; return .mapping (← blockEntries depth) else absent anchor tag
    | _ => absent anchor tag

/-- The node where none is written: it must have an anchor or a tag. -/
def absent (anchor tag : Option (List Char)) : Reader Node :=
  if anchor.isSome || tag.isSome then return .scalar [] true tag else failure

/-- A node, unless one of the given tokens is next. -/
def nodeUnless (depth : Nat) (inBlock atKey : Bool) (stops : List Token) : Reader Node :=
  match depth with
  | 0 => failure
  | depth + 1 => do
    if ← sees stops then return emptyNode else node depth inBlock atKey

/-- The items of a block sequence up to its end. -/
def blockItems (depth : Nat) : Reader (List Node) :=
  match depth with
  | 0 => failure
  | depth + 1 => do
    if ← takes .item then
      let item ← nodeUnless depth true false [.item, .blockEnd]
      return item :: (← blockItems depth)
    else if ← takes .blockEnd then return []
    else failure

/-- The items of a sequence that is not indented further than the mapping around it. -/
def alignedItems (depth : Nat) : Reader (List Node) :=
  match depth with
  | 0 => failure
  | depth + 1 => do
    if ← takes .item then
      let item ← nodeUnless depth true false [.item, .key, .value, .blockEnd]
      return item :: (← alignedItems depth)
    else return []

/-- The entries of a block mapping up to its end. -/
def blockEntries (depth : Nat) : Reader (List (Node × Node)) :=
  match depth with
  | 0 => failure
  | depth + 1 => do
    if ← takes .key then
      let key ← nodeUnless depth true true [.key, .value, .blockEnd]
      let value ← blockValue depth
      return (key, value) :: (← blockEntries depth)
    else if ← takes .blockEnd then return []
    else failure

/-- The value of an entry of a block mapping. -/
def blockValue (depth : Nat) : Reader Node :=
  match depth with
  | 0 => failure
  | depth + 1 => do
    if ← takes .value then nodeUnless depth true true [.key, .value, .blockEnd]
    else return emptyNode

/-- The items of a sequence in brackets up to its end; a comma stands before each but the first.
An entry among them is a mapping of its own. -/
def flowItems (depth : Nat) (isFirst : Bool) : Reader (List Node) :=
  match depth with
  | 0 => failure
  | depth + 1 => do
    if ← takes .flowSequenceEnd then return []
    else
      unless isFirst do comma
      if ← takes .flowSequenceEnd then return []
      else if ← takes .key then
        let key ← nodeUnless depth false false [.value, .comma, .flowSequenceEnd]
        let value ← flowValue depth .flowSequenceEnd
        return .mapping [(key, value)] :: (← flowItems depth false)
      else
        let item ← node depth false false
        return item :: (← flowItems depth false)

/-- The entries of a mapping in braces up to its end; a comma stands before each but the first. -/
def flowEntries (depth : Nat) (isFirst : Bool) : Reader (List (Node × Node)) :=
  match depth with
  | 0 => failure
  | depth + 1 => do
    if ← takes .flowMappingEnd then return []
    else
      unless isFirst do comma
      if ← takes .flowMappingEnd then return []
      else if ← takes .key then
        let key ← nodeUnless depth false false [.value, .comma, .flowMappingEnd]
        let value ← flowValue depth .flowMappingEnd
        return (key, value) :: (← flowEntries depth false)
      else
        let key ← node depth false false
        return (key, emptyNode) :: (← flowEntries depth false)

/-- The value of an entry between brackets that end with a token. -/
def flowValue (depth : Nat) (stop : Token) : Reader Node :=
  match depth with
  | 0 => failure
  | depth + 1 => do
    if ← takes .value then nodeUnless depth false false [.comma, stop] else return emptyNode

end

/-! ## Documents -/

/-- The short forms for tags that hold without being declared. -/
def standardHandles : List (List Char × List Char) :=
  [(['!'], ['!']), (['!', '!'], "tag:yaml.org,2002:".toList)]

/-- Reads directives: one version that can be read, and short forms for tags that differ. -/
def directives (hasVersion : Bool) (declared : List (List Char)) : List Token → Reader Unit
  | .version major minor :: tokens => do
    if hasVersion || major ≠ 1 || !(minor = 1 || minor = 2) then failure
    advance
    directives true declared tokens
  | .tagHandle handle start :: tokens => do
    if declared.contains handle then failure
    modify fun feed => { feed with handles := (handle, start) :: feed.handles }
    advance
    directives hasVersion (handle :: declared) tokens
  | _ => return ()

/-- Leaves out the marks after a document. -/
def skipEnds : List Token → List Token
  | .documentEnd :: tokens => skipEnds tokens
  | tokens => tokens

/-- The only document of a text; none when the text has no document. -/
def document : Reader (Option Node) := do
  let tokens := (← get).tokens
  let depth := 4 * tokens.length + 4
  match tokens with
  | [] => return none
  | first :: _ =>
    let isMarked := match first with
      | .version .. | .tagHandle .. | .documentStart => true
      | _ => false
    let root ←
      if isMarked then do
        directives false [] tokens
        if !(← takes .documentStart) then failure
        let isEmpty := match ← peek with
          | none | some (.version ..) | some (.tagHandle ..) | some .documentStart
          | some .documentEnd => true
          | _ => false
        if isEmpty then pure emptyNode else node depth true false
      else node depth true false
    if (skipEnds (← get).tokens).isEmpty then return some root else failure

end Reader

/-- The only node at the root of a text: none inside when the text is empty, and none at all when
the text is wrong. -/
def readDocument (text : List Char) : Option (Option Node) := do
  let tokens ← tokens? text
  (Reader.document.run' ⟨tokens, Reader.standardHandles, []⟩)

end RefPages.Yaml
