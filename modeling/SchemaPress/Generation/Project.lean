import SchemaPress.Config.Basic
import SchemaPress.Generation.Build
import SchemaPress.OpenApi.Locate

/-!
# Generating projects

`Generator.generateProject` builds the file of a project and writes it, unless it is there already.
No file is written if a step fails.  `Generator.run` generates all projects of a configuration in
the order of their names; one that fails does not keep the others from being generated.
-/

namespace SchemaPress

open OpenApi

/-- The result of a project. -/
structure ProjectResult where
  name : String
  outputPath : String
  models : Nat := 0
  skipped : List Skip := []
  /-- Whether a file was written; it is not if it has the same content already. -/
  written : Bool := false
  deriving DecidableEq, Repr, Inhabited

/-- The results of the projects that were generated, and the names of those that failed. -/
structure Summary where
  projects : List ProjectResult := []
  failed : List String := []
  deriving DecidableEq, Repr, Inhabited

/-- The name of the generated file. -/
def outputFile : String := "models.ts"

/-- The source of a project. -/
def ProjectInput.source (i : ProjectInput) : Except Error Source :=
  if i.fromUrl then (Source.ofUrl i.target).mapError .source
  else if i.target.isEmpty then .error .noTarget
  else .ok (.ofFile i.target)

/-- The path of the generated file. -/
def Project.outputPath (p : Project) : String :=
  Path.join p.output.target outputFile

namespace Generator

/-- Asks the confirmer whether an existing file may be replaced; fails if there is none or it says
no. -/
def confirmOverwrite (g : Generator) (project path : String) : Job Unit :=
  match g.confirmer with
  | none => throw (.within path (.output .alreadyExists))
  | some confirmer => do
    let yes ← Job.within "confirm overwrite" (confirmer project path)
    if !yes then throw (.within path (.output .declined))

/-- The content of the file at `path`, if there is one. -/
def existing? (path : String) : Job (Option ByteArray) := do
  match (← get).files.read path with
  | .ok content => return some content
  | .error e =>
    if e.fault.isMissing then return none
    else throw (.within "read existing output" (.file e))

/-- Writes `content` to `draft`, sets its mode to `readable` and renames it to `path`. -/
def publish (files : FileTree) (draft path : String) (content : ByteArray) :
    Except Error FileTree := do
  let files ← (files.write draft content FileTree.ownerOnly).mapError fun e =>
    .within "write tmp" (.file e)
  let files ← (files.setMode draft FileTree.readable).mapError fun e =>
    .within "chmod tmp" (.file e)
  (files.rename draft path).mapError fun e => .within "rename tmp" (.file e)

/-- Stores `content` at `path` by `publish`, and makes the directory.  If that fails, the draft is
removed. -/
def store (path : String) (content : ByteArray) : Job Unit := do
  let directory := Path.parent path
  let (files, made) := (← get).files.ensureDirectories directory
  modify fun s => { s with files }
  Job.within "mkdir" <| Job.ofExcept .file made
  let (files, draft) ← Job.within "create tmp" <|
    Job.ofExcept .file (files.createDraft directory ("." ++ outputFile ++ ".") ".tmp")
  match publish files draft path content with
  | .ok files => modify fun s => { s with files }
  | .error e =>
    modify fun s => { s with files := files.remove draft }
    throw e

/-- Stores the file of a project unless it has the same content, and tells whether it was stored. -/
def writeOutput (g : Generator) (project path : String) (content : ByteArray) (overwrite : Bool) :
    Job Bool := do
  let existing ← existing? path
  if existing.any (·.data == content.data) then return false
  if g.check then throw (.within path (.output .stale))
  if existing.isSome && !overwrite then g.confirmOverwrite project path
  store path content
  return true

/-- The result of a project before anything is done. -/
def emptyResult (name : String) (project : Project) : ProjectResult :=
  { name, outputPath := project.outputPath }

/-- Builds the file of a project. -/
def buildProject (g : Generator) (project : Project) : Job BuildOutput := do
  let source ← Job.ofExcept id project.input.source
  g.build { source := some source }

/-- Generates a project; there is a result also if a step fails. -/
def generateProject (g : Generator) (name : String) (project : Project) :
    StateM Session (ProjectResult × Option Error) := do
  let empty := emptyResult name project
  let failed (e : Error) : Error := .within ("orchestrator: project " ++ Text.quoted name) e
  match ← (g.buildProject project).run with
  | .error e => return (empty, some (failed e))
  | .ok out =>
    let built := { empty with models := out.models.length, skipped := out.skipped }
    let content := out.content.toUTF8
    match ← (g.writeOutput name empty.outputPath content project.output.mayOverwrite).run with
    | .error e => return (built, some (failed e))
    | .ok written => return ({ built with written }, none)

/-! ### Runs -/

/-- The event at the start of a project. -/
def startEvent (name : String) : Log.Event :=
  { level := .info, fields := [("project", .text name)], message := "starting generation" }

/-- The event of a project that failed. -/
def failureEvent (name : String) (e : Error) : Log.Event :=
  { level := .error
    fields := [("error", .text e.message), ("project", .text name)]
    message := "generation failed" }

/-- The event of a project that was generated. -/
def successEvent (r : ProjectResult) : Log.Event :=
  { level := .info
    fields := [("project", .text r.name), ("output", .text r.outputPath), ("models", .int r.models),
      ("skipped", .int r.skipped.length), ("written", .flag r.written)]
    message := "generation finished" }

/-- Logs an event. -/
def report (event : Log.Event) : StateM Session Unit :=
  modify fun s => { s with log := s.log ++ [event] }

/-- Generates projects in order, with a checkpoint before each, and collects their errors. -/
def runProjects (g : Generator) : List (String × Project) → StateM Session (Summary × List Error)
  | [] => return ({}, [])
  | (name, project) :: rest => do
    match ← Job.checkpoint.run with
    | .error e => return ({}, [e])
    | .ok () =>
      report (startEvent name)
      let (result, error) ← g.generateProject name project
      match error with
      | some e =>
        report (failureEvent name e)
        let (summary, errors) ← g.runProjects rest
        return ({ summary with failed := name :: summary.failed }, e :: errors)
      | none =>
        report (successEvent result)
        let (summary, errors) ← g.runProjects rest
        return ({ summary with projects := result :: summary.projects }, errors)

/-- The projects of a configuration in the order of their names. -/
def ordered (c : Config) : List (String × Project) :=
  c.projectNames.filterMap fun name => (c.project? name).map (name, ·)

/-- Generates all projects of a configuration; the error joins all errors. -/
def run (g : Generator) (c : Config) : StateM Session (Summary × Option Error) := do
  let (summary, errors) ← g.runProjects (ordered c)
  return (summary, if errors.isEmpty then none else some (.joined errors))

end Generator

end SchemaPress
