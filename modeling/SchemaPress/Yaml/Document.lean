import SchemaPress.Node.Basic
import SchemaPress.Yaml.Input
import SchemaPress.Yaml.Scanner

/-!
# From tokens to a document

`Yaml.parse?` reads the first document of a stream.  What follows it does not matter, even if it is
no YAML at all, as long as the end of the document is certain.  A stream may hold no document.

The grammar has one function for each kind of collection.  A node may be left out almost everywhere
and is then the empty plain scalar.
-/

namespace SchemaPress

/-- The tag that is written as `name`, in full or short. -/
def Tag.ofName (name : String) : Tag :=
  let family := "tag:yaml.org,2002:"
  let short := if name.startsWith family then "!!" ++ (name.drop family.length).toString else name
  match short with
  | "!!null" => .null
  | "!!bool" => .bool
  | "!!int" => .int
  | "!!float" => .float
  | "!!str" => .str
  | "!!timestamp" => .timestamp
  | "!!binary" => .binary
  | "!!merge" => .merge
  | _ => .other short

namespace Yaml

/-- The state of composing: the tokens to come, what the handles of tags stand for, the number of
each anchor by name (the latest first), and the anchored nodes. -/
structure Composer where
  tokens : List Token
  handles : List (String × String) := []
  names : List (String × Nat) := []
  anchors : Anchors := #[]
  deriving Inhabited

/-- A computation that composes a part of a document, or finds a fault. -/
abbrev Compose := StateT Composer Option

namespace Compose

/-- The next token, which stays. -/
def peek : Compose Token := do
  match (← get).tokens with
  | t :: _ => pure t
  | [] => failure

/-- Leaves the next token behind. -/
def pop : Compose Unit :=
  modify fun s => { s with tokens := s.tokens.tail }

/-- The handles that need no directive. -/
def standardHandles : List (String × String) :=
  [("!", "!"), ("!!", "tag:yaml.org,2002:")]

/-- The tag of a handle and a suffix. -/
def tagName (handle suffix : String) : Compose String := do
  if handle.isEmpty then pure suffix
  else
    match (← get).handles.find? fun h => h.1 == handle with
    | some h => if (h.2 ++ suffix).isEmpty then failure else pure (h.2 ++ suffix)
    | none => failure

/-- The properties of a node: an anchor and a tag, and the line of the first of them. -/
structure Properties where
  anchor : Option String := none
  tag : Option String := none
  line : Option Nat := none
  deriving Inhabited

/-- Reads an anchor and a tag, in either order. -/
def properties : Compose Properties := do
  let first ← peek
  match first.kind with
  | .anchor name =>
    pop
    let second ← peek
    match second.kind with
    | .tag handle suffix =>
      pop
      return ⟨some name, some (← tagName handle suffix), some first.line⟩
    | _ => return ⟨some name, none, some first.line⟩
  | .tag handle suffix =>
    pop
    let second ← peek
    match second.kind with
    | .anchor name =>
      pop
      return ⟨some name, some (← tagName handle suffix), some first.line⟩
    | _ => return ⟨none, some (← tagName handle suffix), some first.line⟩
  | _ => return {}

/-- Gives an anchor its number, before the node is known. -/
def reserve (name : String) : Compose Nat := do
  let number := (← get).anchors.size
  modify fun s =>
    { s with names := (name, number) :: s.names, anchors := s.anchors.push (.document []) }
  return number

/-- Fills in the node of an anchor. -/
def fill (number : Nat) (node : Node) : Compose Unit :=
  modify fun s => { s with anchors := s.anchors.setIfInBounds number node }

/-- The tag of a scalar: the explicit one, or the one that its style and spelling give. -/
def scalarTag (tag : Option String) (text : String) (style : Style) : Tag :=
  match tag with
  | some name => if name == "!" then implied else .ofName name
  | none => implied
where
  /-- The tag without an explicit one. -/
  implied : Tag := if style == .plain then .ofPlain text else .str

/-- A node that is left out. -/
def empty (line : Nat) : Node :=
  .scalar ⟨.null, "", line + 1⟩

mutual

/-- A node.  `block` tells whether a block collection may stand here, and `indentless` whether a
block sequence may that is not indented. -/
def node (block indentless : Bool) : (fuel : Nat) → Compose Node
  | 0 => failure
  | fuel + 1 => do
    match (← peek).kind with
    | .alias name =>
      match (← get).names.find? fun n => n.1 == name with
      | some n =>
        pop
        return .alias n.2
      | none => failure
    | _ =>
      let props ← properties
      match props.anchor with
      | some name =>
        let number ← reserve name
        let result ← content block indentless props fuel
        fill number result
        return result
      | none => content block indentless props fuel

/-- The node after its properties. -/
def content (block indentless : Bool) (props : Properties) : (fuel : Nat) → Compose Node
  | 0 => failure
  | fuel + 1 => do
    let t ← peek
    let line := props.line.getD t.line
    match t.kind with
    | .scalar text style =>
      pop
      return .scalar ⟨scalarTag props.tag text style, text, line + 1⟩
    | .flowSequenceStart =>
      pop
      return .sequence (← flowSequence true [] fuel)
    | .flowMappingStart =>
      pop
      return .mapping (← flowMapping true [] fuel)
    | kind =>
      if indentless && kind == .blockEntry then
        return .sequence (← indentlessSequence [] fuel)
      else if block && kind == .blockSequenceStart then
        pop
        return .sequence (← blockSequence [] fuel)
      else if block && kind == .blockMappingStart then
        pop
        return .mapping (← blockMapping [] fuel)
      else if props.anchor.isSome || props.tag.isSome then
        return .scalar ⟨scalarTag props.tag "" .plain, "", line + 1⟩
      else failure

/-- The items of a block sequence, of which `items` have been read, in reverse. -/
def blockSequence (items : List Node) : (fuel : Nat) → Compose (List Node)
  | 0 => failure
  | fuel + 1 => do
    match (← peek).kind with
    | .blockEntry =>
      pop
      let t ← peek
      if t.kind == .blockEntry || t.kind == .blockEnd then
        blockSequence (empty t.line :: items) fuel
      else
        let item ← node true false fuel
        blockSequence (item :: items) fuel
    | .blockEnd =>
      pop
      return items.reverse
    | _ => failure

/-- The items of a block sequence that is not indented inside its mapping. -/
def indentlessSequence (items : List Node) : (fuel : Nat) → Compose (List Node)
  | 0 => failure
  | fuel + 1 => do
    match (← peek).kind with
    | .blockEntry =>
      pop
      let t ← peek
      if t.kind == .blockEntry || t.kind == .key || t.kind == .value || t.kind == .blockEnd then
        indentlessSequence (empty t.line :: items) fuel
      else
        let item ← node true false fuel
        indentlessSequence (item :: items) fuel
    | _ => return items.reverse

/-- The keys and values of a block mapping. -/
def blockMapping (children : List Node) : (fuel : Nat) → Compose (List Node)
  | 0 => failure
  | fuel + 1 => do
    match (← peek).kind with
    | .key =>
      pop
      let key ← blockPart fuel
      let t ← peek
      let value ←
        if t.kind == .value then do
          pop
          blockPart fuel
        else pure (empty t.line)
      blockMapping (value :: key :: children) fuel
    | .blockEnd =>
      pop
      return children.reverse
    | .value =>
      -- a value whose key is left out altogether
      failure
    | _ => failure

/-- A key or a value of a block mapping. -/
def blockPart : (fuel : Nat) → Compose Node
  | 0 => failure
  | fuel + 1 => do
    let t ← peek
    if t.kind == .key || t.kind == .value || t.kind == .blockEnd then pure (empty t.line)
    else node true true fuel

/-- The items of a flow sequence; `first` tells that none has been read. -/
def flowSequence (first : Bool) (items : List Node) : (fuel : Nat) → Compose (List Node)
  | 0 => failure
  | fuel + 1 => do
    let t ← peek
    if t.kind == .flowSequenceEnd then
      pop
      return items.reverse
    else if !first && t.kind != .flowEntry then failure
    else
      if !first then pop
      let t ← peek
      match t.kind with
      | .key =>
        pop
        let pair ← flowPair fuel
        flowSequence false (pair :: items) fuel
      | .flowSequenceEnd =>
        pop
        return items.reverse
      | _ =>
        let item ← node false false fuel
        flowSequence false (item :: items) fuel

/-- A mapping of one pair inside a flow sequence.  Where the key is left out, the token in its place
is left behind with it. -/
def flowPair : (fuel : Nat) → Compose Node
  | 0 => failure
  | fuel + 1 => do
    let t ← peek
    let key ←
      if t.kind == .value || t.kind == .flowEntry || t.kind == .flowSequenceEnd then do
        pop
        pure (empty t.line)
      else node false false fuel
    let t ← peek
    if t.kind == .value then
      pop
      let t ← peek
      if t.kind == .flowEntry || t.kind == .flowSequenceEnd then
        return .mapping [key, empty t.line]
      else
        return .mapping [key, ← node false false fuel]
    else return .mapping [key, empty t.line]

/-- The keys and values of a flow mapping; `first` tells that none has been read. -/
def flowMapping (first : Bool) (children : List Node) : (fuel : Nat) → Compose (List Node)
  | 0 => failure
  | fuel + 1 => do
    let t ← peek
    if t.kind == .flowMappingEnd then
      pop
      return children.reverse
    else if !first && t.kind != .flowEntry then failure
    else
      if !first then pop
      let t ← peek
      match t.kind with
      | .key =>
        pop
        let t ← peek
        let key ←
          if t.kind == .value || t.kind == .flowEntry || t.kind == .flowMappingEnd then
            pure (empty t.line)
          else node false false fuel
        let value ← flowValue fuel
        flowMapping false (value :: key :: children) fuel
      | .flowMappingEnd =>
        pop
        return children.reverse
      | _ =>
        let key ← node false false fuel
        let t ← peek
        flowMapping false (empty t.line :: key :: children) fuel

/-- The value of a pair in a flow mapping. -/
def flowValue : (fuel : Nat) → Compose Node
  | 0 => failure
  | fuel + 1 => do
    let t ← peek
    if t.kind == .value then
      pop
      let t ← peek
      if t.kind == .flowEntry || t.kind == .flowMappingEnd then pure (empty t.line)
      else node false false fuel
    else pure (empty t.line)

end

/-- Reads directives: the version, which has to be 1.1 and may be given once, and handles, each of
which may be given once. -/
def directives (version : Bool) (handles : List (String × String)) : (fuel : Nat) → Compose Unit
  | 0 => failure
  | fuel + 1 => do
    match (← peek).kind with
    | .version major minor =>
      if version || major != 1 || minor != 1 then failure
      pop
      directives true handles fuel
    | .tagDirective handle expansion =>
      if handles.any fun h => h.1 == handle then failure
      pop
      directives version (handles ++ [(handle, expansion)]) fuel
    | _ => modify fun s => { s with handles := handles ++ standardHandles }

/-- The first document, with what ends it; `none` if the stream has none. -/
def document (fuel : Nat) : Compose (Option Node) := do
  match (← peek).kind with
  | .streamEnd => return none
  | .version .. | .tagDirective .. | .documentStart =>
    directives false [] fuel
    let t ← peek
    if t.kind != .documentStart then failure
    pop
    let t ← peek
    let root ←
      match t.kind with
      | .version .. | .tagDirective .. | .documentStart | .documentEnd | .streamEnd =>
        pure (empty t.line)
      | _ => node true false fuel
    let _ ← peek
    return some root
  | _ =>
    directives false [] fuel
    let root ← node true false fuel
    let _ ← peek
    return some root

end Compose

/-- Reads the first document of a stream: `none` if there is a fault in it.  A stream without a
document gives an empty document node. -/
def parse? (bytes : List UInt8) : Option Tree := do
  let cs ← characters? bytes
  let tokens := Token.scan cs
  let (root, s) ← (Compose.document (4 * tokens.length + 8)).run { tokens }
  some ⟨.document root.toList, s.anchors⟩

end Yaml

end SchemaPress
