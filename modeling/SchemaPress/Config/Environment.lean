import SchemaPress.Config.Decode
import SchemaPress.Error

/-!
# Variables of the environment

Variables with a certain start override the log settings, and nothing else.
-/

namespace SchemaPress.Environment

/-- The start of the names of variables that are settings. -/
def start : String := "TYPEGEN_"

/-- The name and the value of a variable with that start, cut at the first `=`. -/
def assignment? (entry : String) : Except ConfigError (Option (String × String)) :=
  if !start.toList.isPrefixOf entry.toList then .ok none
  else
    let cs := entry.toList
    let name := String.ofList ((cs.takeWhile (· != '=')).drop start.length)
    match cs.dropWhile (· != '=') with
    | _ :: value => .ok (some (name, String.ofList value))
    | [] => .error (.noValue entry)

/-- The path of the setting of a variable: its name in lower case, with dots for underscores. -/
def path (name : String) : String :=
  String.ofList ((Text.lower name).toList.map fun c => if c == '_' then '.' else c)

/-- The setting of an assignment, if it is one of the log settings. -/
def setting? (assignment : String × String) : Option (String × Value) :=
  match path assignment.1 with
  | "log.level" => some ("level", .text assignment.2)
  | "log.pretty" => (truth? (Text.trim assignment.2)).map fun b => ("pretty", .bool b)
  | _ => none

/-- The log settings of an environment; of several assignments the last one counts. -/
def overrides (environment : List String) : Except ConfigError Settings := do
  let assignments ← environment.mapM assignment?
  let made := (assignments.filterMap id).filterMap setting?
  return made.foldl (fun all s => Settings.set all s.1 s.2) []

end SchemaPress.Environment
