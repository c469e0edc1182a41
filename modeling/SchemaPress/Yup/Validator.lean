import SchemaPress.Renderer
import SchemaPress.TypeScript.Interface
import SchemaPress.Yup.Chain

/-!
# Validators

`Yup.validator` writes a model as the declaration of an object schema with an entry for each
property, and `Yup.renderer` is the renderer that does so.
-/

namespace SchemaPress.Yup

/-- The style of validators. -/
structure ValidatorStyle where
  /-- The name under which the generated code knows the validation library. -/
  library : String := "yup"
  /-- Whether properties that are not required may be left out. -/
  honorRequired : Bool := false
  deriving DecidableEq, Repr, Inhabited

/-- A choice about how validators are written. -/
inductive ValidatorOption where
  | library (name : String)
  | honorRequired (enabled : Bool)
  deriving DecidableEq, Repr, Inhabited

namespace ValidatorStyle

/-- The style after one more choice; a blank name for the library is ignored. -/
def choose (style : ValidatorStyle) : ValidatorOption → ValidatorStyle
  | .library name =>
    if Text.isBlankText name then style else { style with library := Text.trim name }
  | .honorRequired enabled => { style with honorRequired := enabled }

/-- The style that some choices lead to, of which a later one overrides an earlier one. -/
def ofOptions (options : List ValidatorOption) : ValidatorStyle :=
  options.foldl choose {}

end ValidatorStyle

/-- The entry of a property, with its line end. -/
def entry (style : ValidatorStyle) (p : Property) : String :=
  let rules := { derive p with optional := style.honorRequired && !p.required }
  TypeScript.propertyName p.name ++ ": " ++ style.library ++ chain rules ++ ",\n"

/-- The validator of a model, with its line end. -/
def validator (style : ValidatorStyle) (m : Model) : String :=
  "export const " ++ m.name ++ "Validator = " ++ style.library ++ ".object().shape(\x7b\n"
    ++ String.join (m.properties.toList.map (entry style)) ++ "\x7d);\n"

/-- The line that makes the validation library known. -/
def preamble (style : ValidatorStyle) : String :=
  "import * as " ++ style.library ++ " from 'yup';"

/-! ### Rendering -/

/-- The name of the renderer for validators. -/
def rendererName : String := "yup"

/-- The style of a validator; regard to what is required comes after all choices. -/
def styleFor (options : List ValidatorOption) (honorRequired : Bool) : ValidatorStyle :=
  .ofOptions (options ++ if honorRequired then [.honorRequired true] else [])

/-- The renderer for validators. -/
def renderer (options : List ValidatorOption) : Renderer where
  name := rendererName
  preamble := some (preamble (.ofOptions options))
  render honorRequired m := do
    Job.checkpoint
    return validator (styleFor options honorRequired) m

end SchemaPress.Yup
