import SchemaPress.Html.PlainText
import SchemaPress.Renderer
import SchemaPress.Text.CharClass
import SchemaPress.Text.Words

/-!
# Interfaces

`TypeScript.interface` writes a model as an interface declaration with a member for each property,
and `TypeScript.renderer` is the renderer that does so.  A name that is a plain identifier is
written as it is; any other name stands in double quotes (`propertyName`).  A description becomes a
comment of one line (`docComment`): its markup is dropped, and what would end the comment is broken
up.
-/

namespace SchemaPress.TypeScript

/-! ### Member names -/

/-- Whether an identifier may start with `c`. -/
def startsName (c : Char) : Bool :=
  c == '_' || c == '$' || Text.isLetter c

/-- Whether `c` may stand behind the first character of an identifier. -/
def continuesName (c : Char) : Bool :=
  startsName c || Text.isDigit c

/-- Whether a text is a plain identifier. -/
def isIdentifier : List Char → Bool
  | [] => false
  | c :: rest => startsName c && rest.all continuesName

/-- A character inside double quotes: a quote and a backslash are escaped. -/
def quotedChar (c : Char) : List Char :=
  if c == '"' || c == '\\' then ['\\', c] else [c]

/-- A name in front of the colon of a member. -/
def propertyName (name : String) : String :=
  if isIdentifier name.toList then name
  else String.ofList ('"' :: name.toList.flatMap quotedChar ++ ['"'])

/-! ### Documentation comments -/

/-- A text in which nothing ends a comment. -/
def guardEnd : List Char → List Char
  | '*' :: '/' :: rest => '*' :: '\\' :: '/' :: guardEnd rest
  | c :: rest => c :: guardEnd rest
  | [] => []

/-- The comment of a plain text: none if the text is blank. -/
def commentOf (text : String) : String :=
  match Text.words text with
  | [] => ""
  | words => "/** " ++ String.ofList (guardEnd (" ".intercalate words).toList) ++ " */"

/-- The comment of a description. -/
def docComment (description : String) : String :=
  commentOf (Html.plainText description)

/-! ### Declarations -/

/-- The style of interfaces. -/
structure InterfaceStyle where
  /-- Whether members that are not required are marked. -/
  optionalMarkers : Bool := false
  /-- Whether descriptions become comments. -/
  comments : Bool := false
  deriving DecidableEq, Repr, Inhabited

/-- A choice about how interfaces are written. -/
inductive InterfaceOption where
  | optionalMarkers (enabled : Bool)
  | comments (enabled : Bool)
  deriving DecidableEq, Repr, Inhabited

namespace InterfaceStyle

/-- The style after one more choice. -/
def choose (style : InterfaceStyle) : InterfaceOption → InterfaceStyle
  | .optionalMarkers enabled => { style with optionalMarkers := enabled }
  | .comments enabled => { style with comments := enabled }

/-- The style that some choices lead to, of which a later one overrides an earlier one. -/
def ofOptions (options : List InterfaceOption) : InterfaceStyle :=
  options.foldl choose {}

end InterfaceStyle

/-- The type of a member whose property has no supported type. -/
def fallbackType : String := "unknown"

/-- The type of a member. -/
def typeName : PropertyType → String
  | .number => "number"
  | .string => "string"
  | .boolean => "boolean"
  | .unsupported => fallbackType

/-- A member of an interface. -/
def member (p : Property) (required : Bool) : String :=
  propertyName p.name ++ (if required then "" else "?") ++ ": " ++ typeName p.type

/-- The lines of a property: its comment, if there is one, and its member. -/
def memberLines (style : InterfaceStyle) (p : Property) : String :=
  let comment := if style.comments then docComment p.constraints.description else ""
  (if comment.isEmpty then "" else "\n\t" ++ comment)
    ++ "\n\t" ++ member p (!style.optionalMarkers || p.required)

/-- The interface declaration of a model. -/
def interface (style : InterfaceStyle) (m : Model) : String :=
  let comment := if style.comments then docComment m.metadata.description else ""
  (if comment.isEmpty then "" else comment ++ "\n")
    ++ "interface " ++ m.name ++ r" {"
    ++ String.join (m.properties.toList.map (memberLines style))
    ++ "\n\x7d"

/-! ### Rendering -/

/-- The name of the renderer for interfaces. -/
def rendererName : String := "typescript"

/-- The warning for a property whose type is not supported. -/
def unsupportedEvent (m : Model) (p : Property) : Log.Event :=
  { level := .warn
    fields := [("model", .text m.name), ("property", .text p.name)]
    message := "unsupported property type, emitting " ++ fallbackType }

/-- The style of an interface; regard to what is required comes after all choices. -/
def styleFor (options : List InterfaceOption) (honorRequired : Bool) : InterfaceStyle :=
  .ofOptions (options ++ if honorRequired then [.optionalMarkers true] else [])

/-- The renderer for interfaces.  It warns of every property whose type is not supported. -/
def renderer (options : List InterfaceOption) : Renderer where
  name := rendererName
  render honorRequired m := do
    Job.checkpoint
    let unsupported := m.properties.toList.filter (·.type == .unsupported)
    Job.logAll (unsupported.map (unsupportedEvent m))
    return interface (styleFor options honorRequired) m ++ "\n"

end SchemaPress.TypeScript
