import SchemaPress.Value.Timestamp

/-!
# Values of a document

A `Value` is what a part of a document denotes once anchors, tags and the spelling of scalars are
out of the way.  The fields of a map have distinct names and stay in the order of the document.
-/

namespace SchemaPress

/-- The values of documents. -/
inductive Value where
  | null
  | bool (b : Bool)
  | int (n : Int)
  | float (x : Decimal.Binary64)
  | text (s : String)
  | time (t : Timestamp)
  | list (items : List Value)
  | map (fields : List (String × Value))
  deriving Inhabited, Repr

namespace Value

/-- The value of a map under a name. -/
def field? (name : String) : Value → Option Value
  | .map fields => (fields.find? fun f => f.1 == name).map (·.2)
  | _ => none

end Value

end SchemaPress
