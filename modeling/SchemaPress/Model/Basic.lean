import SchemaPress.Model.Properties

/-!
# Models

A model is a named object schema: what is known about the schema as a whole and its properties in
the order of the document.
-/

namespace SchemaPress

/-- The keywords of a schema apart from its properties. -/
structure Metadata where
  title : String := ""
  description : String := ""
  nullable : Bool := false
  required : List String := []
  extensions : List (String × Value) := []
  raw : Value := .null
  deriving Inhabited, Repr

/-- Whether a property of the given name is required. -/
def Metadata.isRequired (m : Metadata) (name : String) : Bool :=
  m.required.contains name

/-- A named object schema. -/
structure Model where
  name : String := ""
  metadata : Metadata := {}
  properties : Properties := .empty
  deriving Inhabited

/-- Why a model cannot be built. -/
inductive ModelError where
  | unnamed
  deriving DecidableEq, Repr, Inhabited

/-- The message of an error. -/
def ModelError.message : ModelError → String
  | .unnamed => "model: name is required"

/-- The model with the given properties, of which a later one replaces an earlier one of its name.
The name must not be blank. -/
def Model.build (name : String) (metadata : Metadata) (properties : List Property) :
    Except ModelError Model :=
  if Text.isBlankText name then .error .unnamed
  else .ok ⟨name, metadata, .ofList properties⟩

end SchemaPress
