import SchemaPress.Model.Basic
import SchemaPress.OpenApi.Document

/-!
# What may go wrong

`Error` covers everything at which work may fail.  Most errors are causes with their own type;
`within` adds what was being done.  `Error.message` is the text of an error, and `Error.has`
looks for a cause in it.
-/

namespace SchemaPress

/-- The faults of operations on files. -/
inductive FileFault where
  | missing
  | notDirectory
  | isDirectory
  | alreadyExists
  | inUse
  | tooManyLinks
  | nameTooLong
  | notInBundle
  | invalid
  deriving DecidableEq, Repr, Inhabited

/-- The message of a fault. -/
def FileFault.message : FileFault → String
  | .missing => "no such file or directory"
  | .notDirectory => "not a directory"
  | .isDirectory => "is a directory"
  | .alreadyExists => "file exists"
  | .inUse => "file already exists"
  | .tooManyLinks => "too many levels of symbolic links"
  | .nameTooLong => "file name too long"
  | .notInBundle => "file does not exist"
  | .invalid => "invalid argument"

/-- Whether the fault is that there is no such file. -/
def FileFault.isMissing : FileFault → Bool
  | .missing | .notInBundle => true
  | _ => false

/-- An operation on a file that failed. -/
structure FileError where
  operation : String
  path : String
  fault : FileFault
  deriving DecidableEq, Repr, Inhabited

/-- The message of an error. -/
def FileError.message (e : FileError) : String :=
  e.operation ++ " " ++ e.path ++ ": " ++ e.fault.message

/-- The errors of `Source`. -/
inductive SourceError where
  | empty
  | emptyUrl
  | invalidUrl (url : String)
  | scheme (name : String)
  deriving DecidableEq, Repr, Inhabited

/-- The message of an error. -/
def SourceError.message : SourceError → String
  | .empty => "openapi: source is required"
  | .emptyUrl => "openapi: empty URL source"
  | .invalidUrl url => "openapi: invalid URL " ++ Text.quoted url ++ ": " ++ OpenApi.foreignDetails
  | .scheme name => "openapi: unsupported URL scheme " ++ Text.quoted name

/-- The errors of `Loader.load`. -/
inductive LoadError where
  | noSource
  | noPath
  | noBundlePath
  | noUrl
  | noBundle
  | noTransport
  | unknownKind (name : String)
  | badRequest
  | noAnswer (url : String)
  | status (url status : String)
  | tooLarge (url : String) (limit : Nat)
  deriving DecidableEq, Repr, Inhabited

/-- The message of an error. -/
def LoadError.message : LoadError → String
  | .noSource => "openapi loader: source is nil"
  | .noPath => "openapi loader: file path is required"
  | .noBundlePath => "openapi loader: fs path is required"
  | .noUrl => "openapi loader: url is required"
  | .noBundle => "openapi loader: filesystem is not configured"
  | .noTransport => "openapi loader: http support disabled"
  | .unknownKind name => "openapi loader: unsupported source kind " ++ Text.quoted name
  | .badRequest => "openapi loader: build request: " ++ OpenApi.foreignDetails
  | .noAnswer url => "openapi loader: fetch " ++ url ++ ": " ++ OpenApi.foreignDetails
  | .status url line => "openapi loader: fetch " ++ url ++ ": unexpected status " ++ line
  | .tooLarge url limit =>
    "openapi loader: " ++ url ++ " exceeds " ++ Decimal.intText limit ++ " bytes"

/-- The errors of `Registry`. -/
inductive RegistryError where
  | noRenderer
  | unnamed
  | duplicate (name : String)
  | repeated (name : String)
  | unknown (name : String) (registered : List String)
  | emptyPipeline
  deriving DecidableEq, Repr, Inhabited

/-- The message of an error. -/
def RegistryError.message : RegistryError → String
  | .noRenderer => "render: renderer is required"
  | .unnamed => "render: renderer name is required"
  | .duplicate name => "render: duplicate renderer: " ++ Text.quoted name
  | .repeated name => "render: duplicate renderer in pipeline: " ++ Text.quoted name
  | .unknown name registered =>
    "render: unknown renderer: " ++ Text.quoted name ++ " (registered: ["
      ++ " ".intercalate registered ++ "])"
  | .emptyPipeline => "render: pipeline is empty"

/-- The errors of `Layout`. -/
inductive LayoutError where
  | badTemplate (name : String)
  | noTemplate
  | failed
  deriving DecidableEq, Repr, Inhabited

/-- The message of an error. -/
def LayoutError.message : LayoutError → String
  | .badTemplate name =>
    "layout: load template " ++ Text.quoted name ++ ": " ++ OpenApi.foreignDetails
  | .noTemplate => "layout: template is not loaded"
  | .failed => "layout: execute template: " ++ OpenApi.foreignDetails

/-- The faults of replacing an output file. -/
inductive OutputFault where
  | alreadyExists
  | declined
  | stale
  deriving DecidableEq, Repr, Inhabited

/-- The message of a fault. -/
def OutputFault.message : OutputFault → String
  | .alreadyExists => "orchestrator: output exists and overwrite is disabled"
  | .declined => "orchestrator: overwrite declined"
  | .stale => "orchestrator: output is out of date"

/-- A field of a configuration that is not valid. -/
structure FieldError where
  field : String := ""
  message : String := ""
  deriving DecidableEq, Repr, Inhabited

/-- The message of an error. -/
def FieldError.text (e : FieldError) : String :=
  " ".intercalate ("config:" :: [e.field, e.message].filter fun s => !s.isEmpty)

/-- The errors of loading a configuration. -/
inductive ConfigError where
  | noProjects
  | unreadable
  | unfit
  | noValue (name : String)
  | fields (errors : List FieldError)
  deriving DecidableEq, Repr, Inhabited

/-- The message of an error. -/
def ConfigError.message : ConfigError → String
  | .noProjects => "config: no projects configured"
  | .unreadable => "config: parse: " ++ OpenApi.foreignDetails
  | .unfit => "config: unmarshal: " ++ OpenApi.foreignDetails
  | .noValue name => "config: variable " ++ Text.quoted name ++ " has no value"
  | .fields errors => "\n".intercalate (errors.map FieldError.text)

/-- The errors of jobs. -/
inductive Error where
  | cancelled
  | aborted
  | noContext
  | noInput
  | noTarget
  | document (e : OpenApi.DocumentError)
  | noDocument (e : OpenApi.NoDocument)
  | model (e : ModelError)
  | source (e : SourceError)
  | load (e : LoadError)
  | registry (e : RegistryError)
  | layout (e : LayoutError)
  | file (e : FileError)
  | output (fault : OutputFault)
  | config (e : ConfigError)
  | other (text : String)
  | within (activity : String) (cause : Error)
  | joined (errors : List Error)
  deriving Repr, Inhabited

namespace Error

mutual

/-- The message of an error. -/
def message : Error → String
  | .cancelled => "context canceled"
  | .aborted => "prompt: aborted"
  | .noContext => "orchestrator: context is required"
  | .noInput => "orchestrator: source or document is required"
  | .noTarget => "input target is required"
  | .document e => e.text
  | .noDocument e => e.message
  | .model e => e.message
  | .source e => e.message
  | .load e => e.message
  | .registry e => e.message
  | .layout e => e.message
  | .file e => e.message
  | .output fault => fault.message
  | .config e => e.message
  | .other text => text
  | .within activity cause => activity ++ ": " ++ message cause
  | .joined errors => "\n".intercalate (messages errors)

/-- The messages of some errors. -/
def messages : List Error → List String
  | [] => []
  | e :: rest => message e :: messages rest

end

mutual

/-- Whether an error is, or was caused by, one with a given property. -/
def has (p : Error → Bool) : Error → Bool
  | .within activity cause => p (.within activity cause) || has p cause
  | .joined errors => p (.joined errors) || hasAny p errors
  | e => p e

/-- Whether one of some errors is, or was caused by, one with a given property. -/
def hasAny (p : Error → Bool) : List Error → Bool
  | [] => false
  | e :: rest => has p e || hasAny p rest

end

/-- Whether an error comes from cancelled work. -/
def isCancelled (e : Error) : Bool :=
  e.has fun
    | .cancelled => true
    | _ => false

end Error

end SchemaPress
