import SchemaPress.Text.Casing
import SchemaPress.Text.Words
import SchemaPress.Value.Basic

/-!
# Properties of a model

A property has one of a few types and carries its constraints as the schema states them; what a
constraint means is left to whoever writes it out.
-/

namespace SchemaPress

/-- The types a property may have; everything that is none of the first three is `unsupported`. -/
inductive PropertyType where
  | number
  | string
  | boolean
  | unsupported
  deriving DecidableEq, Repr, Inhabited

namespace PropertyType

/-- The name of a type. -/
def name : PropertyType → String
  | .number => "number"
  | .string => "string"
  | .boolean => "boolean"
  | .unsupported => "unsupported"

/-- Whether the type is one of the three that are written out. -/
def isSupported : PropertyType → Bool
  | .unsupported => false
  | _ => true

/-- The type with a given name, in any case and with blanks around it.  An integer counts as a
number only on request. -/
def parse (integerAsNumber : Bool) (name : String) : PropertyType :=
  match Text.lower (Text.trim name) with
  | "number" => .number
  | "string" => .string
  | "boolean" => .boolean
  | "integer" => if integerAsNumber then .number else .unsupported
  | _ => .unsupported

end PropertyType

/-- The keywords of the schema of a property apart from its type. -/
structure Constraints where
  description : String := ""
  format : String := ""
  nullable : Bool := false
  minimum : Option Decimal.Binary64 := none
  maximum : Option Decimal.Binary64 := none
  minLength : Option Nat := none
  maxLength : Option Nat := none
  pattern : String := ""
  /-- The allowed values, if any are given. -/
  enum : Option (List Value) := none
  default : Value := .null
  extensions : List (String × Value) := []
  raw : Value := .null
  deriving Inhabited, Repr

/-- The allowed values that are texts, in order. -/
def Constraints.textEnum (c : Constraints) : List String :=
  (c.enum.getD []).filterMap fun
    | .text s => some s
    | _ => none

/-- A property of a model. -/
structure Property where
  name : String
  type : PropertyType := .unsupported
  required : Bool := false
  constraints : Constraints := {}
  deriving Inhabited, Repr

end SchemaPress
