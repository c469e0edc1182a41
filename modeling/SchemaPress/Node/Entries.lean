import SchemaPress.Node.Basic

/-!
# Looking into a document

`Node.resolve?` follows aliases and enters the document node; `Node.entries` is a mapping as a list
of entries with distinct keys, in the order in which the keys first occur, each with the value of
its last occurrence; `Node.lookup?` is the resolved value under a key.
-/

namespace SchemaPress

/-- The greatest depth to which a document is followed. -/
def maxDepth : Nat := 512

/-- A key of a mapping and the node under it. -/
structure Entry where
  key : String
  node : Node
  deriving Inhabited, Repr

namespace Node

/-- The node that is meant, in at most `steps` steps through document nodes and aliases. -/
def resolveWithin (anchors : Anchors) : (steps : Nat) → Node → Option Node
  | 0, _ => none
  | _ + 1, .document [] => none
  | steps + 1, .document (node :: _) => resolveWithin anchors steps node
  | steps + 1, .alias anchor =>
    match anchors[anchor]? with
    | some node => resolveWithin anchors steps node
    | none => none
  | _ + 1, node => some node

/-- The node that is meant: neither a document node nor an alias. -/
def resolve? (anchors : Anchors) (node : Node) : Option Node :=
  node.resolveWithin anchors maxDepth

/-- The keys and values of a list of children; a child without a partner is ignored. -/
def pairs : List Node → List (Node × Node)
  | key :: value :: rest => (key, value) :: pairs rest
  | _ => []

/-- The text of a key: that of a scalar, and the empty text for a collection. -/
def keyText : Node → String
  | .scalar s => s.text
  | _ => ""

/-- Puts a node under a key: in place of the earlier one, or at the end. -/
def put (key : String) (node : Node) : List Entry → List Entry
  | [] => [⟨key, node⟩]
  | e :: rest => if e.key == key then ⟨key, node⟩ :: rest else e :: put key node rest

/-- Puts a pair under the text of its key, if the key can be resolved. -/
def putPair (anchors : Anchors) (entries : List Entry) (pair : Node × Node) : List Entry :=
  match pair.1.resolve? anchors with
  | some key => put key.keyText pair.2 entries
  | none => entries

/-- The entries of a mapping, with distinct keys; anything else has none. -/
def entries (anchors : Anchors) (node : Node) : List Entry :=
  match node.resolve? anchors with
  | some (.mapping children) => (pairs children).foldl (putPair anchors) []
  | _ => []

/-- The resolved node under a key. -/
def lookup? (anchors : Anchors) (node : Node) (key : String) : Option Node :=
  match (node.entries anchors).find? fun e => e.key == key with
  | some e => e.node.resolve? anchors
  | none => none

/-- Whether the node is a mapping. -/
def isMapping : Node → Bool
  | .mapping _ => true
  | _ => false

end Node

end SchemaPress
