import SchemaPress.Model.Property

/-!
# Validation rules

`Yup.derive` gives the rules of a property: for a number its bounds; for a text its lengths, its
pattern and its allowed values; for anything else none.
-/

namespace SchemaPress.Yup

/-- The kind of value that a chain of rules starts with. -/
inductive ChainTag where
  | number
  | string
  | mixed
  | other (name : String)
  deriving DecidableEq, Repr, Inhabited

/-- The name of a kind; without a name it is `mixed`. -/
def ChainTag.name : ChainTag → String
  | .number => "number"
  | .string => "string"
  | .mixed => "mixed"
  | .other name => if name.isEmpty then "mixed" else name

/-- The kind with a given name. -/
def ChainTag.ofName (name : String) : ChainTag :=
  match name with
  | "number" => .number
  | "string" => .string
  | "mixed" => .mixed
  | name => .other name

/-- A rule that a value has to keep. -/
inductive Rule where
  | minimum (bound : Decimal.Binary64)
  | maximum (bound : Decimal.Binary64)
  | minLength (length : Nat)
  | maxLength (length : Nat)
  | pattern (pattern : String)
  | oneOf (values : List String)
  | email
  | uuid
  deriving DecidableEq, Repr, Inhabited

/-- The rules of a property, and whether it may be left out. -/
structure PropertyRules where
  tag : ChainTag := .mixed
  rules : List Rule := []
  optional : Bool := false
  deriving DecidableEq, Repr, Inhabited

/-- The rules that the constraints of a property give. -/
def derive (p : Property) : PropertyRules :=
  let c := p.constraints
  match p.type with
  | .number =>
    { tag := .number
      rules := (c.minimum.map Rule.minimum).toList ++ (c.maximum.map Rule.maximum).toList }
  | .string =>
    { tag := .string
      rules := (c.minLength.map Rule.minLength).toList ++ (c.maxLength.map Rule.maxLength).toList
        ++ (if c.pattern.isEmpty then [] else [.pattern c.pattern])
        ++ (if c.textEnum.isEmpty then [] else [.oneOf c.textEnum]) }
  | .boolean | .unsupported => { tag := .mixed }

end SchemaPress.Yup
