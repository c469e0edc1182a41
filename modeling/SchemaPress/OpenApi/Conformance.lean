import SchemaPress.OpenApi.Shape
import SchemaPress.Text.Casing
import SchemaPress.Value.Exchange

/-!
# Documents that have the shape of OpenAPI

`conforms` decides whether a JSON value fits a shape.  Field names count without regard to case.
What stands in a map by name is read with floating point numbers before it is looked at, so a count
there is rounded first (`viaFloat`).
-/

namespace SchemaPress.OpenApi

open Decimal

/-- The literal of a number as it is looked at. -/
def seen (viaFloat : Bool) (literal : String) : String :=
  if viaFloat then ((Json.float literal).exchange?).getD literal else literal

/-- An unsigned integer of 64 bits, written as one. -/
def count? (literal : String) : Option Nat :=
  let cs := literal.toList
  if !cs.isEmpty && cs.all Char.isDigit && ofDigits cs < Nat.pow 2 64 then some (ofDigits cs)
  else none

/-- Whether a literal is a signed integer of 64 bits, written as one. -/
def isPosition (literal : String) : Bool :=
  let (negative, cs) := takeSign literal.toList
  let n := ofDigits cs
  !cs.isEmpty && cs.all Char.isDigit && (n < Nat.pow 2 63 || (negative && n == Nat.pow 2 63))

/-- The shape of a field, whatever the case of its name. -/
def Kind.field? (kind : Kind) (name : String) : Option Shape :=
  (kind.fields.find? fun f => Text.sameFold f.1 name).map (·.2)

/-- The name under which a map tells its own place in the source. -/
def originName : String := "__origin__"

/-- The name under which an object is a reference. -/
def referenceName : String := "$ref"

/-- The target of a reference: a text that is not empty. -/
def target? (fields : List (String × Json)) : Option String :=
  match fields.find? fun f => f.1 == referenceName with
  | some (_, .string s) => if s.isEmpty then none else some s
  | _ => none

/-- The shape of each entry of a map by name; its own place in the source stands beside them. -/
def nameView (item : Shape) (name : String) : Option Shape :=
  some (if name == originName then .object .origin else item)

/-- The shape of each entry of a map by pattern. -/
def patternView (item : Shape) (name : String) : Option Shape :=
  if name.startsWith "x-" then none else nameView item name

/-- The shapes of the fields of a reference, of which only `origin` is looked at. -/
def referenceView (name : String) : Option Shape :=
  if name == originName then some (.object .origin) else none

mutual

/-- Whether a JSON value fits a shape. -/
def conforms (viaFloat : Bool) (shape : Shape) : Json → Bool
  | .null => true
  | .bool _ => shape == .flag || shape == .any || shape == .extra
  | .number literal =>
    match shape with
    | .number | .any => true
    | .count => (count? (seen viaFloat literal)).isSome
    | .position => isPosition (seen viaFloat literal)
    | _ => false
  | .string _ => shape == .text || shape == .any || shape == .types
  | .array items =>
    match shape with
    | .any => true
    | .types => itemsConform viaFloat .text items
    | .list item => itemsConform viaFloat item items
    | _ => false
  | .object fields =>
    let isReference := (target? fields).isSome && fieldsConform viaFloat referenceView fields
    match shape with
    | .any => true
    | .object kind => fieldsConform viaFloat kind.field? fields
    | .linked kind => isReference || fieldsConform viaFloat kind.field? fields
    | .extra => isReference || fieldsConform true Kind.schema.field? fields
    | .named item => fieldsConform true (nameView item) fields
    | .table item => fieldsConform viaFloat (fun _ => some item) fields
    | .patterned item => fieldsConform true (patternView item) fields
    | .linkedPattern item => isReference || fieldsConform true (patternView item) fields
    | _ => false

/-- Whether every item fits a shape. -/
def itemsConform (viaFloat : Bool) (shape : Shape) : List Json → Bool
  | [] => true
  | v :: rest => conforms viaFloat shape v && itemsConform viaFloat shape rest

/-- Whether every field fits the shape that its name gives it, if it gives one. -/
def fieldsConform (viaFloat : Bool) (view : String → Option Shape) : List (String × Json) → Bool
  | [] => true
  | (name, v) :: rest =>
    (match view name with
      | some shape => conforms viaFloat shape v
      | none => true) && fieldsConform viaFloat view rest

end

end SchemaPress.OpenApi
