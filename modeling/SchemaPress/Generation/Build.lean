import SchemaPress.OpenApi.Loader
import SchemaPress.OpenApi.Reading
import SchemaPress.Page.Layout
import SchemaPress.Renderer
import SchemaPress.TypeScript.Interface
import SchemaPress.Yup.Validator

/-!
# Building a file

A `Generator` has everything that generation needs.  `Generator.build` takes a document, or loads
one, reads its models, lets the renderers of the pipeline write each of them, and lays out what they
wrote.
-/

namespace SchemaPress

open OpenApi

/-- The job that decides whether the file of `project` at `path` may be replaced. -/
abbrev Confirmer := (project path : String) → Job Bool

/-- The parts of a generator: a loader, a reader, a pipeline of registered renderers, a layout and a
confirmer. -/
structure Generator where
  load : Option Source → Job Document
  read : Document → Job ReadResult
  registry : Registry
  pipeline : List String
  layout : Layout
  confirmer : Option Confirmer := none
  honorRequired : Bool := false
  check : Bool := false

/-- A document, or else the source of one. -/
structure BuildInput where
  document : Option Document := none
  source : Option Source := none
  deriving Inhabited

/-- The content of a file, with its models and skips. -/
structure BuildOutput where
  content : String
  models : List Model
  skipped : List Skip
  deriving Inhabited

namespace Generator

/-- The pipeline of a generator by default. -/
def standardPipeline : List String :=
  [TypeScript.rendererName, Yup.rendererName]

/-- The registry of a generator by default. -/
def standardRegistry : Registry :=
  ⟨[TypeScript.renderer [], Yup.renderer []]⟩

/-- The document of `input`, loaded from its source if there is none. -/
def document (g : Generator) (input : BuildInput) : Job Document :=
  match input.document, input.source with
  | some document, _ => pure document
  | none, none => throw .noInput
  | none, some source => Job.within "orchestrator: load document" (g.load (some source))

/-- The texts of the renderers for a model, in order. -/
def renderParts (honorRequired : Bool) (m : Model) : List Renderer → Job (List String)
  | [] => pure []
  | r :: rest => do
    let part ← Job.within ("orchestrator: render " ++ m.name ++ " with " ++ r.name) <|
      r.render honorRequired m
    return part :: (← renderParts honorRequired m rest)

/-- The blocks of the renderers for some models, in order. -/
def renderBlocks (honorRequired : Bool) (renderers : List Renderer) : List Model → Job (List Block)
  | [] => pure []
  | m :: rest => do
    let parts ← renderParts honorRequired m renderers
    return ⟨m.name, parts⟩ :: (← renderBlocks honorRequired renderers rest)

/-- The preambles of some renderers, without the empty ones. -/
def preambles (renderers : List Renderer) : List String :=
  (renderers.filterMap (·.preamble)).filter fun p => !p.isEmpty

/-- Builds a file: loads and reads the document, renders its models and executes the layout. -/
def build (g : Generator) (input : BuildInput) : Job BuildOutput := do
  Job.checkpoint
  let document ← g.document input
  let result ← Job.within "orchestrator: read models" (g.read document)
  let renderers ← Job.within "orchestrator" <|
    Job.ofExcept .registry (g.registry.resolve g.pipeline)
  let blocks ← renderBlocks g.honorRequired renderers result.models
  let content ← Job.within "orchestrator" <|
    Job.ofExcept .layout (g.layout.execute { preambles := preambles renderers, blocks })
  return { content, models := result.models, skipped := result.skipped }

/-- `build` in `session`, which must not be `none`. -/
def buildIn (g : Generator) (session : Option Session) (input : BuildInput) :
    Except Error BuildOutput × Session :=
  match session with
  | none => (.error .noContext, {})
  | some session => (g.build input).run.run session

end Generator

end SchemaPress
