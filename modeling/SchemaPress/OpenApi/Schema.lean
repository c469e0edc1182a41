import SchemaPress.OpenApi.Conformance

/-!
# Schemas

`SchemaRef.ofJson?` reads a JSON object as a schema or a reference to one, if it has the right
shape. The fields of a schema are read in order and without regard to case, so of two spellings of
one name the later counts.  A `null` says nothing: a field that may be absent becomes absent, any
other stays as it is.
-/

namespace SchemaPress.OpenApi

open Decimal

/-- A schema, as far as models are made of it.  `slots` holds the texts that have stood in the list
of required names: a `null` in that list means what stood in its place before. -/
structure Schema where
  title : String := ""
  description : String := ""
  format : String := ""
  pattern : String := ""
  nullable : Bool := false
  types : Option (List String) := none
  minimum : Option Binary64 := none
  maximum : Option Binary64 := none
  minLength : Nat := 0
  maxLength : Option Nat := none
  enum : List Value := []
  default : Value := .null
  required : List String := []
  slots : List String := []
  extensions : List (String × Value) := []
  deriving Inhabited, Repr

/-- The text that a field now has. -/
def textOr (old : String) : Json → String
  | .string s => s
  | _ => old

/-- The boolean that a field now has. -/
def flagOr (old : Bool) : Json → Bool
  | .bool b => b
  | _ => old

/-- The number that a field now has. -/
def float? : Json → Option Binary64
  | .number literal => some (Json.float literal)
  | _ => none

/-- The count that a field now has. -/
def jsonCount? : Json → Option Nat
  | .number literal => count? literal
  | _ => none

/-- The types that a field now names. -/
def types? : Json → Option (List String)
  | .string s => some [s]
  | .array items => some (items.map (textOr ""))
  | _ => none

/-- The items of a list, each `null` taken from the same place of `slots`. -/
def fillSlots : (slots : List String) → List Json → List String
  | _, [] => []
  | [], v :: rest => textOr "" v :: fillSlots [] rest
  | s :: slots, v :: rest => textOr s v :: fillSlots slots rest

namespace Schema

/-- A schema after its list of required names is set. -/
def setRequired (s : Schema) : Json → Schema
  | .array [] => { s with required := [], slots := [] }
  | .array items =>
    let required := fillSlots s.slots items
    { s with required, slots := required ++ s.slots.drop required.length }
  | _ => { s with required := [], slots := [] }

/-- A schema after the field with the given standard name is set. -/
def setField (s : Schema) (name : String) (v : Json) : Schema :=
  match name with
  | "title" => { s with title := textOr s.title v }
  | "description" => { s with description := textOr s.description v }
  | "format" => { s with format := textOr s.format v }
  | "pattern" => { s with pattern := textOr s.pattern v }
  | "nullable" => { s with nullable := flagOr s.nullable v }
  | "type" => { s with types := types? v }
  | "minimum" => { s with minimum := float? v }
  | "maximum" => { s with maximum := float? v }
  | "minLength" => { s with minLength := (jsonCount? v).getD s.minLength }
  | "maxLength" => { s with maxLength := jsonCount? v }
  | "enum" =>
    match v with
    | .array items => { s with enum := Json.itemValues items }
    | _ => { s with enum := [] }
  | "default" => { s with default := v.toValue }
  | "required" => s.setRequired v
  | _ => s

/-- A schema after one more field. -/
def readField (s : Schema) (field : String × Json) : Schema :=
  let s := if field.1.startsWith "x-" then
      { s with extensions := s.extensions ++ [(field.1, field.2.toValue)] } else s
  match Kind.schema.fields.find? fun f => Text.sameFold f.1 field.1 with
  | some f => s.setField f.1 field.2
  | none => s

/-- The schema with the given fields. -/
def ofFields (fields : List (String × Json)) : Schema :=
  fields.foldl readField {}

/-- The types other than `null`. -/
def properTypes (s : Schema) : List String :=
  (s.types.getD []).filter fun t => !Text.sameFold t "null"

/-- Whether `null` is allowed. -/
def allowsNull (s : Schema) : Bool :=
  s.nullable || (s.types.getD []).any fun t => Text.sameFold t "null"

end Schema

/-- A schema, or a reference to one. -/
inductive SchemaRef where
  | reference (target : String)
  | schema (s : Schema)
  deriving Inhabited, Repr

/-- Reads a schema or a reference, if the value has the right shape. -/
def SchemaRef.ofJson? (v : Json) : Option SchemaRef :=
  match v with
  | .object fields =>
    if conforms false (.linked .schema) v then
      match target? fields with
      | some target => some (.reference target)
      | none => some (.schema (.ofFields fields))
    else none
  | _ => none

end SchemaPress.OpenApi
