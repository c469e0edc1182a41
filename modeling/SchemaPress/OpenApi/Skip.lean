/-!
# What is left out

A `Skip` says that a schema or a property was left out, and why.
-/

namespace SchemaPress.OpenApi

/-- Why something is left out. -/
inductive SkipReason where
  /-- it is a reference, and references are not followed -/
  | reference
  /-- the schema is not that of an object -/
  | notObject
  /-- the property has no type -/
  | untyped
  /-- the name of the schema is blank -/
  | unnamed
  /-- some other reason -/
  | other (name : String)
  deriving DecidableEq, Repr, Inhabited

/-- The name of a reason. -/
def SkipReason.name : SkipReason → String
  | .reference => "reference"
  | .notObject => "not_object"
  | .untyped => "untyped"
  | .unnamed => "unnamed"
  | .other name => name

/-- The reason with a given name. -/
def SkipReason.ofName (name : String) : SkipReason :=
  match name with
  | "reference" => .reference
  | "not_object" => .notObject
  | "untyped" => .untyped
  | "unnamed" => .unnamed
  | name => .other name

/-- Something that is left out; the property is empty if it is the schema itself. -/
structure Skip where
  schema : String
  property : String := ""
  reason : SkipReason
  target : String := ""
  deriving DecidableEq, Repr, Inhabited

namespace Skip

/-- A skip in one line. -/
def text (s : Skip) : String :=
  let place := if s.property.isEmpty then s.schema else s.schema ++ "." ++ s.property
  if s.target.isEmpty then place ++ ": " ++ s.reason.name
  else place ++ ": " ++ s.reason.name ++ " (" ++ s.target ++ ")"

/-- The message of a skip in the log. -/
def notice (s : Skip) : String :=
  match s.reason with
  | .reference => "references are not supported, skipping"
  | .unnamed => "schema name is blank, skipping"
  | _ =>
    if s.property.isEmpty then "schema root is not an object, skipping"
    else "property has no primitive type, skipping"

end Skip

end SchemaPress.OpenApi
