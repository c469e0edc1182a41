import SchemaPress.Command.Arguments
import SchemaPress.Config.Loading
import SchemaPress.Generation.Project
import SchemaPress.Log.Output
import SchemaPress.Prompt

/-!
# Running a command

`Invocation.run` does what the command line asks for: it prints the version, or generates the
projects of a configuration.  What is logged goes to the error output once the configuration is
known.
-/

namespace SchemaPress.Command

open OpenApi

/-- The version, the environment, and the means that a command has. -/
structure Surroundings where
  version : String
  environment : List String := []
  transport : Option Transport := none
  terminal : Option Terminal := none
  time : Timestamp

/-- The standard output and the log of a command, and the error that it failed with. -/
structure Outcome where
  printed : String := ""
  logged : String := ""
  error : Option Error := none
  deriving Inhabited

/-- The absolute path of a flag; `-` and rooted paths are kept. -/
def expand (files : FileTree) (path : String) : String :=
  if path == "-" || Path.isRooted path then path else files.absolute path

/-- The name of the project that `singleConfig` has. -/
def singleProject : String := "default"

/-- The configuration with the project of the options `schema` and `output`. -/
def singleConfig (files : FileTree) (o : GenerateOptions) : Except Error Config := do
  match o.output with
  | none => throw (.other "--output is required with --schema")
  | some output =>
    let source ← (Source.ofText o.schema).mapError .source
    let project : Project :=
      { output := { target := expand files output }
        input := { target := o.schema, fromUrl := source.kind == .url } }
    return { log := { level := "info", pretty := true }, projects := [(singleProject, project)] }

/-- The configuration with the log settings of the options. -/
def withLogFlags (o : GenerateOptions) (c : Config) : Config :=
  let level := if o.logLevel.isEmpty then c.log.level else o.logLevel
  { c with log := { level, pretty := (c.log.pretty || o.pretty) && !o.jsonLogs } }

/-- The configuration of the options: `singleConfig`, or that of the file `config`. -/
def loadConfig (files : FileTree) (environment : List String) (o : GenerateOptions) :
    Except Error Config := do
  let config ←
    if o.schema.isEmpty then Config.ofFile files (expand files o.config) environment
    else singleConfig files o
  let config := withLogFlags o config
  config.validate.mapError .config
  return config

/-- The generator of the options. -/
def generator (s : Surroundings) (o : GenerateOptions) : Generator where
  load := Loader.load { transport := s.transport }
  read := readModels { integerAsNumber := o.integerAsNumber }
  registry := ⟨[TypeScript.renderer [.comments o.comments], Yup.renderer []]⟩
  pipeline := if o.typesOnly then [TypeScript.rendererName] else Generator.standardPipeline
  layout := .standard
  confirmer := if o.interactive then s.terminal.map Prompt.confirmer else none
  honorRequired := o.honorRequired
  check := o.check

/-- The configuration restricted to the projects of the options, or to those that the terminal
picks. -/
def chooseProjects (s : Surroundings) (o : GenerateOptions) (config : Config) : Job Config := do
  let mut config := config
  if !o.projects.isEmpty then
    config := config.select o.projects
    if config.projects.isEmpty then
      throw (.other ("no configured project matches " ++ ", ".intercalate o.projects))
  let names := config.projectNames
  Job.log
    { level := .info
      fields := [("projects", .texts names)]
      message := "Found " ++ Decimal.intText names.length ++ " target projects" }
  if !o.interactive then return config
  match s.terminal with
  | none => throw (.other "there is no terminal to ask on")
  | some terminal => return config.select (← Prompt.selectProjects terminal names)

/-- Generates the projects of a configuration. -/
def generateProjects (s : Surroundings) (o : GenerateOptions) (config : Config) : Job Unit := do
  Job.log
    { level := .info, fields := [("version", .text s.version)], message := "welcome to typegen" }
  let config ← chooseProjects s o config
  if o.interactive && config.projects.isEmpty then
    Job.log { level := .warn, message := "no project selected" }
  else
    let (summary, error) ← (generator s o).run config
    match error with
    | some _ =>
      Job.log
        { level := .error
          fields := [("failed", .texts summary.failed)]
          message := "generation finished with errors" }
      throw (.other "generation failed")
    | none =>
      Job.log
        { level := .info
          fields := [("projects", .int summary.projects.length)]
          message := "generation complete" }

/-- Runs `generate` with the options. -/
def generate (s : Surroundings) (o : GenerateOptions) : StateM Session Outcome := do
  match loadConfig (← get).files s.environment o with
  | .error e => return { error := some e }
  | .ok config =>
    modify fun session => { session with log := [] }
    let result ← (generateProjects s o config).run
    let logged := Log.output config.log.level config.log.pretty s.time (← get).log
    match result with
    | .error e => return { logged, error := some e }
    | .ok () => return { logged }

/-- Runs a command; `help` is left to the caller. -/
def Invocation.run (s : Surroundings) (i : Invocation) : StateM Session Outcome :=
  match i.choice with
  | .version => return { printed := s.version ++ "\n" }
  | .generate | .none => generate s i.options

/-- The line that reports why a command failed. -/
def errorLine (e : Error) : String :=
  "typegen: error: " ++ String.ofList (e.message.toList.takeWhile (· != '\n'))

end SchemaPress.Command
