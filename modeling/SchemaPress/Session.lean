import SchemaPress.Files.Tree
import SchemaPress.Log.Event

/-!
# Work that can be cancelled

Work is cut up by checkpoints.  A `Session` knows how many checkpoints are still passed before the
work counts as cancelled.  It holds the files that the work reads and changes, and collects what is
logged, asked and requested.  A `Job` is a computation in a session that may fail; what it has done
to the session stays, also if it fails.
-/

namespace SchemaPress

/-- A question: yes or no, or which of some options. -/
inductive Question where
  | confirm (message help : String) (default : Bool)
  | select (message : String) (options : List String) (defaults : List Nat) (help : String)
      (pageSize : Nat)
  deriving DecidableEq, Repr, Inhabited

/-- A request for a web address. -/
structure Request where
  method : String
  accept : String
  deadline : Bool
  deriving DecidableEq, Repr, Inhabited

/-- The state of ongoing work: how many checkpoints are still passed (`none`: all of them), the
files, and what was logged, asked and requested so far. -/
structure Session where
  passes : Option Nat := none
  files : FileTree := {}
  log : List Log.Event := []
  questions : List Question := []
  requests : List Request := []
  deriving Inhabited

/-- A computation in a session that may fail with an error. -/
abbrev Job (α : Type) := ExceptT Error (StateM Session) α

namespace Job

/-- Passes a checkpoint, or fails if the work has been cancelled. -/
def checkpoint : Job Unit := do
  match (← get).passes with
  | none => pure ()
  | some 0 => throw .cancelled
  | some (n + 1) => modify fun s => { s with passes := some n }

/-- Logs events in order. -/
def logAll (events : List Log.Event) : Job Unit :=
  modify fun s => { s with log := s.log ++ events }

/-- Logs an event. -/
def log (event : Log.Event) : Job Unit :=
  logAll [event]

/-- Notes that a question was asked. -/
def ask (question : Question) : Job Unit :=
  modify fun s => { s with questions := s.questions ++ [question] }

/-- Notes that a request was sent. -/
def request (r : Request) : Job Unit :=
  modify fun s => { s with requests := s.requests ++ [r] }

/-- Adds to an error what was being done. -/
def within {α : Type} (activity : String) (job : Job α) : Job α :=
  tryCatch job fun e => throw (.within activity e)

/-- Takes over a result that may be an error. -/
def ofExcept {ε α : Type} (wrap : ε → Error) : Except ε α → Job α
  | .ok a => pure a
  | .error e => throw (wrap e)

end Job

end SchemaPress
