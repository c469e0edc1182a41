import SchemaPress.Node.Scalar

/-!
# Documents as trees of nodes

A document is a tree of nodes in source order.  A mapping keeps its keys and values as one list of
children that alternate, repeated keys included, so nothing that the source says is lost.  A node
may carry an anchor; an alias refers to one by its number, and the anchored nodes stand in a table
beside the tree.  An alias may lie inside the node that it refers to.
-/

namespace SchemaPress

/-- A part of a document. -/
inductive Node where
  | scalar (s : Scalar)
  | sequence (items : List Node)
  | mapping (children : List Node)
  | alias (anchor : Nat)
  | document (content : List Node)
  deriving Inhabited, Repr

/-- The anchored nodes of a document, by number. -/
abbrev Anchors := Array Node

/-- A document: its root and its anchored nodes. -/
structure Tree where
  root : Node
  anchors : Anchors := #[]
  deriving Inhabited, Repr

end SchemaPress
