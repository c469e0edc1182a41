import SchemaPress.Config.Basic
import SchemaPress.Error
import SchemaPress.Url

/-!
# Valid configurations

`Config.validate` accepts a configuration, or names every field that is not valid.  The value of a
field has to keep some rules; the first one that it breaks is reported.
-/

namespace SchemaPress

/-- Whether a text is a web address with a host. -/
def Url.isWebAddress (s : String) : Bool :=
  match Url.parseReference? (Text.lower s) with
  | some url => url.isWeb && !url.host.isEmpty
  | none => false

namespace Config

/-! ### Rules -/

/-- A rule for the value of a field. -/
inductive Rule where
  | required
  | oneOf (choices : List String)
  | excludes (characters : String)
  | webAddress
  deriving DecidableEq, Repr

/-- Whether the value satisfies the rule. -/
def Rule.holds : Rule → String → Bool
  | .required, value => !value.isEmpty
  | .oneOf choices, value => choices.contains value
  | .excludes characters, value => !value.toList.any characters.toList.contains
  | .webAddress, value => Url.isWebAddress value

/-- The message for a value that breaks the rule. -/
def Rule.message : Rule → String
  | .required => "is required"
  | .oneOf choices => "must be one of: " ++ ", ".intercalate choices
  | .excludes characters => "must not contain " ++ Text.quoted characters
  | .webAddress => "must be an http(s) URL when from_url is set"

/-- The full name of a field, and a rule that its value breaks. -/
structure Breach where
  field : String
  rule : Rule
  deriving DecidableEq, Repr

/-- The first rule that the value of a field breaks, if it breaks one. -/
def breach? (field value : String) (rules : List Rule) : Option Breach :=
  (rules.find? fun rule => !rule.holds value).map (⟨field, ·⟩)

/-! ### Fields -/

/-- The name of the whole, with which the full names of all fields start. -/
def wholeName : String := "Config"

/-- The path of the field with a given full name: what follows the first dot. -/
def fieldPath (full : String) : String :=
  match full.toList.dropWhile (· != '.') with
  | _ :: path => String.ofList path
  | [] => full

/-- The levels that can be chosen. -/
def levels : List String :=
  ["trace", "debug", "info", "warn", "error", "disabled"]

/-- The first breach of each log setting. -/
def logBreaches (s : LogSettings) : List Breach :=
  (breach? (wholeName ++ ".log.level") s.level [.oneOf levels]).toList

/-- The rules for the input of a project: only one that is read from the web has to be a web
address. -/
def inputRules (i : ProjectInput) : List Rule :=
  if i.fromUrl then [.required, .webAddress] else [.required]

/-- The first breach of the name, the output and the input of a project. -/
def projectBreaches (p : String × Project) : List Breach :=
  let field := wholeName ++ ".projects[" ++ p.1 ++ "]"
  (breach? field p.1 [.required, .excludes "."]).toList
    ++ (breach? (field ++ ".output.target") p.2.output.target [.required]).toList
    ++ (breach? (field ++ ".input.target") p.2.input.target (inputRules p.2.input)).toList

/-- The error with which a breach is reported. -/
def Breach.error (b : Breach) : FieldError :=
  ⟨fieldPath b.field, b.rule.message⟩

/-- The errors of all breaches. -/
def fieldErrors (c : Config) : List FieldError :=
  (logBreaches c.log ++ c.projects.flatMap projectBreaches).map Breach.error

/-- Fails if there is no project, or with `fieldErrors` if there are any. -/
def validate (c : Config) : Except ConfigError Unit :=
  if c.projects.isEmpty then .error .noProjects
  else
    match c.fieldErrors with
    | [] => .ok ()
    | errors => .error (.fields errors)

end Config

end SchemaPress
