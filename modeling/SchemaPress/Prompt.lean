import SchemaPress.Generation.Build

/-!
# Prompts

What the user is asked: whether an existing file may be replaced, and which projects to generate.  A
`Terminal` puts the questions and brings back answers.
-/

namespace SchemaPress

/-- Something that answers questions. -/
structure Terminal where
  confirm : Question → Job Bool
  select : Question → Job (List Int)

namespace Prompt

/-- The question whether the file of a project may be replaced; the answer is no unless said
otherwise. -/
def overwriteQuestion (project path : String) : Question :=
  .confirm (project ++ ": " ++ path ++ " already exists. Overwrite?")
    "set output.overwrite to true in the config to skip this question" false

/-- The question which projects to generate; all of them unless said otherwise. -/
def projectsQuestion (names : List String) : Question :=
  .select "Projects to generate" names (List.range names.length) "" 0

/-- Asks a terminal before a file is replaced. -/
def confirmer (t : Terminal) : Confirmer := fun project path =>
  t.confirm (overwriteQuestion project path)

/-- The options at the given places, those outside left out. -/
def optionsAt (options : List String) (indices : List Int) : List String :=
  indices.filterMap fun i => if i < 0 then none else options[i.toNat]?

/-- The places of those options that are among some values. -/
def placesOf (options values : List String) : List Nat :=
  (List.range options.length).filter fun i => (options[i]?).any values.contains

/-- Lets the user pick some of the names; if there are none, nothing is asked. -/
def selectProjects (t : Terminal) (names : List String) : Job (List String) := do
  if names.isEmpty then return []
  let picked ← t.select (projectsQuestion names)
  return optionsAt names picked

/-- The error behind a failed answer: an interrupted one means that the user gave up. -/
def answerError (interrupted : Bool) (e : Error) : Error :=
  if interrupted then .aborted else e

/-- A terminal that fails with the cancellation, if the work was cancelled, before it asks anything.
-/
def guarded (t : Terminal) : Terminal where
  confirm q := do Job.checkpoint; t.confirm q
  select q := do Job.checkpoint; t.select q

end Prompt

end SchemaPress
