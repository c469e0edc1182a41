/-!
# JSON values

`Json` is a JSON text as data.  A number keeps its literal, so no digit is lost before it is known
what the number is for, and an object keeps its fields as they are written, repeated names included.

`Json.depth` is the nesting depth (a value that is neither array nor object has depth zero).
-/

namespace SchemaPress

/-- A JSON value. -/
inductive Json where
  | null
  | bool (b : Bool)
  | number (literal : String)
  | string (s : String)
  | array (items : List Json)
  | object (fields : List (String × Json))
  deriving Inhabited, Repr

namespace Json

mutual

/-- The depth of nested arrays and objects. -/
def depth : Json → Nat
  | .array [] => 0
  | .object [] => 0
  | .array items => depthItems items + 1
  | .object fields => depthFields fields + 1
  | _ => 0

/-- The greatest depth among some items. -/
def depthItems : List Json → Nat
  | [] => 0
  | v :: rest => max (depth v) (depthItems rest)

/-- The greatest depth among some fields. -/
def depthFields : List (String × Json) → Nat
  | [] => 0
  | (_, v) :: rest => max (depth v) (depthFields rest)

end

/-- The value of an object under a name; of a repeated name the last counts. -/
def field? (name : String) : Json → Option Json
  | .object fields => (fields.reverse.find? fun f => f.1 == name).map (·.2)
  | _ => none

end Json

end SchemaPress
