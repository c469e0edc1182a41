import SchemaPress.Json.Basic
import SchemaPress.Value.Basic

/-!
# Values in JSON

`Value.toJson?` writes a value as JSON: the fields of a map in the order of their names, a point in
time as its text.  Values that are no finite number have no JSON form.  `Json.toValue` reads JSON
back, where every number is a float; `Json.toValue?` does so for any JSON text, in which names may
be repeated and numbers be out of range.
-/

namespace SchemaPress

open Decimal

/-- Puts a field in front of the first one whose name does not come before its own. -/
def insertField {α : Type} (field : String × α) : List (String × α) → List (String × α)
  | [] => [field]
  | other :: rest =>
    if field.1 ≤ other.1 then field :: other :: rest else other :: insertField field rest

/-- Fields in the order of their names. -/
def sortFields {α : Type} (fields : List (String × α)) : List (String × α) :=
  fields.foldr insertField []

namespace Value

mutual

/-- The JSON form of a value, if it has one. -/
def toJson? : Value → Option Json
  | .null => some .null
  | .bool b => some (.bool b)
  | .int n => some (.number (intText n))
  | .float x => x.exchange?.map .number
  | .text s => some (.string s)
  | .time t => t.text?.map .string
  | .list items => (toItems? items).map .array
  | .map fields => (toFields? fields).map fun fields => .object (sortFields fields)

/-- The JSON forms of some items. -/
def toItems? : List Value → Option (List Json)
  | [] => some []
  | v :: rest => do return (← toJson? v) :: (← toItems? rest)

/-- The JSON forms of some fields. -/
def toFields? : List (String × Value) → Option (List (String × Json))
  | [] => some []
  | (name, v) :: rest => do return (name, ← toJson? v) :: (← toFields? rest)

end

end Value

namespace Json

/-- The float nearest to a JSON number. -/
def float (literal : String) : Binary64 :=
  ((Literal.parse? literal.toList).map Literal.value).getD .nan

mutual

/-- The value of a JSON text, in which every number is a float. -/
def toValue : Json → Value
  | .null => .null
  | .bool b => .bool b
  | .number literal => .float (float literal)
  | .string s => .text s
  | .array items => .list (itemValues items)
  | .object fields => .map (fieldValues fields)

/-- The values of some items. -/
def itemValues : List Json → List Value
  | [] => []
  | v :: rest => toValue v :: itemValues rest

/-- The values of some fields. -/
def fieldValues : List (String × Json) → List (String × Value)
  | [] => []
  | (name, v) :: rest => (name, toValue v) :: fieldValues rest

end

/-- Fields with one more in front, which gives way to a later one of the same name. -/
def addField (field : String × Value) (fields : List (String × Value)) : List (String × Value) :=
  if fields.any (·.1 == field.1) then fields else field :: fields

mutual

/-- The value of a JSON text in which the last of repeated names counts.  There is none if a number
is out of range. -/
def toValue? : Json → Option Value
  | .null => some .null
  | .bool b => some (.bool b)
  | .number literal =>
    let x := float literal
    if x.isFinite then some (.float x) else none
  | .string s => some (.text s)
  | .array items => (itemValues? items).map .list
  | .object fields => (fieldValues? fields).map .map

/-- The values of some items. -/
def itemValues? : List Json → Option (List Value)
  | [] => some []
  | v :: rest => do return (← toValue? v) :: (← itemValues? rest)

/-- The values of some fields. -/
def fieldValues? : List (String × Json) → Option (List (String × Value))
  | [] => some []
  | (name, v) :: rest => do return addField (name, ← toValue? v) (← fieldValues? rest)

end

end Json

end SchemaPress
