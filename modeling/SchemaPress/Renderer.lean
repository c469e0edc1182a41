import SchemaPress.Model.Basic
import SchemaPress.Session

/-!
# Renderers and registries

A `Renderer` turns a model into a piece of source text.  A `Registry` knows renderers by name:
`Registry.add` is work on a registry that may fail, and `Registry.resolve` turns a pipeline, which
is a list of names, into renderers.
-/

namespace SchemaPress

/-- A way to write models: its name, the line that its output needs at the top of a file, and what
it writes for a model, with or without regard to which properties are required. -/
structure Renderer where
  name : String
  preamble : Option String := none
  render : (honorRequired : Bool) → Model → Job String

/-- Renderers with different names. -/
structure Registry where
  renderers : List Renderer := []

namespace Registry

/-- The registered names, in order. -/
def names (r : Registry) : List String :=
  (r.renderers.map (·.name)).mergeSort fun a b => decide (a ≤ b)

/-- The renderer with a given name. -/
def find? (r : Registry) (name : String) : Option Renderer :=
  r.renderers.find? (·.name == name)

/-- Adds a renderer, which has to be there and to have a name of its own.  What has been done to the
registry stays, also if it fails. -/
def add (renderer : Option Renderer) : ExceptT RegistryError (StateM Registry) Unit :=
  match renderer with
  | none => throw .noRenderer
  | some renderer => do
    if renderer.name.isEmpty then throw .unnamed
    if ((← MonadState.get).find? renderer.name).isSome then throw (.duplicate renderer.name)
    modify fun r => ⟨r.renderers ++ [renderer]⟩

/-- The registry that is left behind by work that does not fail. -/
def after (r : Registry) (work : ExceptT RegistryError (StateM Registry) Unit) :
    Except RegistryError Registry :=
  match work.run.run r with
  | (.ok (), r) => .ok r
  | (.error e, _) => .error e

/-- The registry with one more renderer. -/
def register (r : Registry) (renderer : Option Renderer) : Except RegistryError Registry :=
  r.after (add renderer)

/-- A registry of some renderers. -/
def ofList (renderers : List (Option Renderer)) : Except RegistryError Registry :=
  after {} (renderers.forM add)

/-- The renderer with a given name, or the error that there is none. -/
def get (r : Registry) (name : String) : Except RegistryError Renderer :=
  match r.find? name with
  | some renderer => .ok renderer
  | none => .error (.unknown name r.names)

/-- The renderers with the given names; `seen` are the names that came before. -/
def resolveFrom (r : Registry) (seen : List String) :
    List String → Except RegistryError (List Renderer)
  | [] => .ok []
  | name :: rest =>
    if seen.contains name then .error (.repeated name)
    else do
      let renderer ← r.get name
      return renderer :: (← r.resolveFrom (name :: seen) rest)

/-- The renderers with the given names, in order.  There has to be one, and none may be repeated. -/
def resolve (r : Registry) (names : List String) : Except RegistryError (List Renderer) :=
  if names.isEmpty then .error .emptyPipeline else r.resolveFrom [] names

end Registry

end SchemaPress
