/-!
# Configurations

A configuration says what is logged and which projects there are: for each one a document to read
and a directory to write to.
-/

namespace SchemaPress

/-- The directory of the generated file, and whether that may be replaced. -/
structure ProjectOutput where
  target : String := ""
  /-- Whether an existing file is replaced without a question, `true` by default. -/
  overwrite : Option Bool := none
  deriving DecidableEq, Repr, Inhabited

/-- Whether an existing file is replaced without a question. -/
def ProjectOutput.mayOverwrite (o : ProjectOutput) : Bool :=
  o.overwrite.getD true

/-- The path or the URL of a document. -/
structure ProjectInput where
  target : String := ""
  fromUrl : Bool := false
  deriving DecidableEq, Repr, Inhabited

/-- The input and the output of a project. -/
structure Project where
  output : ProjectOutput := {}
  input : ProjectInput := {}
  deriving DecidableEq, Repr, Inhabited

/-- The least level that is logged, and whether the log is in the form for a terminal. -/
structure LogSettings where
  level : String := ""
  pretty : Bool := false
  deriving DecidableEq, Repr, Inhabited

/-- The log settings, and the projects by distinct names. -/
structure Config where
  log : LogSettings := {}
  projects : List (String × Project) := []
  deriving DecidableEq, Repr, Inhabited

namespace Config

/-- The file of a configuration if no other is given. -/
def standardFile : String := "typegen.config.json"

/-- The names of the projects, sorted. -/
def projectNames (c : Config) : List String :=
  (c.projects.map (·.1)).mergeSort fun a b => decide (a ≤ b)

/-- The project with a given name. -/
def project? (c : Config) (name : String) : Option Project :=
  c.projects.lookup name

/-- The configuration with the projects whose names are in `names`. -/
def select (c : Config) (names : List String) : Config :=
  { c with projects := c.projects.filter fun p => names.contains p.1 }

end Config

end SchemaPress
