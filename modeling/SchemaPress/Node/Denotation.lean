import SchemaPress.Node.Entries

/-!
# What a document denotes

`Node.value` unfolds a node along its entries, items and aliases into a `Value`.  The unfolding has
to end within `maxDepth` levels, so an alias inside the node it refers to is an error and never a
value cut short.
-/

namespace SchemaPress

/-- Why a node denotes nothing. -/
inductive NodeError where
  | tooDeep
  | badScalar (line : Nat)
  deriving DecidableEq, Repr, Inhabited

namespace Node

/-- The value of a node whose unfolding has at most `levels` levels. -/
def valueWithin (anchors : Anchors) : (levels : Nat) → Node → Except NodeError Value
  | 0, _ => .error .tooDeep
  | levels + 1, node =>
    match node.resolve? anchors with
    | some (.mapping children) => do
      let fields ← (entries anchors (.mapping children)).mapM fun e => do
        return (e.key, ← valueWithin anchors levels e.node)
      return .map fields
    | some (.sequence items) => do
      return .list (← items.mapM (valueWithin anchors levels))
    | some (.scalar s) =>
      match s.value? with
      | some v => .ok v
      | none => .error (.badScalar s.line)
    | _ => .ok .null

/-- The value of a node, nested at most `maxDepth` deep. -/
def value (anchors : Anchors) (node : Node) : Except NodeError Value :=
  node.valueWithin anchors (maxDepth + 1)

end Node

end SchemaPress
