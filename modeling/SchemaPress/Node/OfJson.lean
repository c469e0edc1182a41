import SchemaPress.Json.Basic
import SchemaPress.Node.Entries

/-!
# JSON texts as documents

A JSON text becomes a tree without anchors.  A number is tagged as an integer if it is written as
one and has 64 bits, and as a float otherwise.  Texts nested deeper than `maxDepth` are refused.
-/

namespace SchemaPress.Node

/-- A text of a document that is written in quotes. -/
def ofText (s : String) : Node :=
  .scalar ⟨.str, s, 0⟩

/-- The tag of a number, by its literal. -/
def numberTag (literal : String) : Tag :=
  if literal.toList.any fun c => c == '.' || c == 'e' || c == 'E' then .float
  else if (Spelling.intOfBase? 10 literal.toList).isSome then .int else .float

mutual

/-- The node of a JSON value that may be nested `levels` deep. -/
def ofJsonWithin (levels : Nat) : Json → Option Node
  | .null => some (.scalar ⟨.null, "null", 0⟩)
  | .bool b => some (.scalar ⟨.bool, if b then "true" else "false", 0⟩)
  | .number literal => some (.scalar ⟨numberTag literal, literal, 0⟩)
  | .string s => some (ofText s)
  | .array items => (ofItems levels items).map .sequence
  | .object fields => (ofFields levels fields).map .mapping

/-- The items of an array, which are one level further in. -/
def ofItems (levels : Nat) : List Json → Option (List Node)
  | [] => some []
  | v :: rest =>
    match levels with
    | 0 => none
    | levels + 1 => do return (← ofJsonWithin levels v) :: (← ofItems (levels + 1) rest)

/-- The fields of an object as alternating keys and values. -/
def ofFields (levels : Nat) : List (String × Json) → Option (List Node)
  | [] => some []
  | (name, v) :: rest =>
    match levels with
    | 0 => none
    | levels + 1 => do
      return ofText name :: (← ofJsonWithin levels v) :: (← ofFields (levels + 1) rest)

end

/-- The tree of a JSON value, if it is nested at most `maxDepth` deep. -/
def ofJson? (v : Json) : Option Tree :=
  (ofJsonWithin maxDepth v).map fun node => ⟨node, #[]⟩

end SchemaPress.Node
