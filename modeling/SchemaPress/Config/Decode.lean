import SchemaPress.Config.Basic
import SchemaPress.Config.Settings
import SchemaPress.Text.Casing

/-!
# Configurations from settings

`Config.ofSettings?` takes a configuration from settings.  A name is found in any case, exactly if
it is there and otherwise in the spelling that comes first.  Numbers and truth values also stand for
texts, and texts and numbers for truth values.
-/

namespace SchemaPress

/-- The truth value of a text. -/
def truth? (s : String) : Option Bool :=
  if s ∈ ["1", "t", "T", "TRUE", "true", "True"] then some true
  else if s ∈ ["0", "f", "F", "FALSE", "false", "False"] then some false
  else none

namespace Settings

/-- The value under `name`, or under the first key with the same fold; `null` if there is none. -/
def find (fields : Settings) (name : String) : Value :=
  ((fields.lookup name).orElse fun _ =>
    (fields.find? fun f => Text.sameFold f.1 name).map (·.2)).getD .null

/-- The value as a text; lists, maps and points in time are refused. -/
def text? : Value → Option String
  | .null => some ""
  | .text s => some s
  | .bool b => some (if b then "1" else "0")
  | .int n => some (Decimal.intText n)
  | .float x => some x.positional
  | _ => none

/-- The value as a truth value, `false` for `null`. -/
def flag? : Value → Option Bool
  | .null => some false
  | .bool b => some b
  | .int n => some (n != 0)
  | .float x => some !x.isZero
  | .text s => if s.isEmpty then some false else truth? s
  | _ => none

/-- The value as a truth value, `none` for `null`. -/
def optionalFlag? : Value → Option (Option Bool)
  | .null => some none
  | value => (flag? value).map some

/-- The fields of a map; `null` and points in time have none. -/
def fields? : Value → Option Settings
  | .map fields => some fields
  | .null | .time _ => some []
  | _ => none

end Settings

open Settings

/-- The log settings of a value. -/
def LogSettings.ofValue? (value : Value) : Option LogSettings := do
  let fields ← fields? value
  return { level := ← text? (fields.find "level"), pretty := ← flag? (fields.find "pretty") }

/-- The output of a value. -/
def ProjectOutput.ofValue? (value : Value) : Option ProjectOutput := do
  let fields ← fields? value
  return {
    target := ← text? (fields.find "target")
    overwrite := ← optionalFlag? (fields.find "overwrite") }

/-- The input of a value. -/
def ProjectInput.ofValue? (value : Value) : Option ProjectInput := do
  let fields ← fields? value
  return {
    target := ← text? (fields.find "target")
    fromUrl := ← flag? (fields.find "from_url") }

/-- The project of a value. -/
def Project.ofValue? (value : Value) : Option Project := do
  let fields ← fields? value
  return {
    output := ← ProjectOutput.ofValue? (fields.find "output")
    input := ← ProjectInput.ofValue? (fields.find "input") }

mutual

/-- The projects of a map by name, or those of all maps in a list. -/
def Project.allOfValue? : Value → Option (List (String × Project))
  | .list items => allOfItems? items
  | value => do (← fields? value).mapM fun f => do return (f.1, ← Project.ofValue? f.2)

/-- The projects of all items; of those with the same name the last one counts. -/
def Project.allOfItems? : List Value → Option (List (String × Project))
  | [] => some []
  | item :: rest => do
    let first ← allOfValue? item
    return (← allOfItems? rest).foldl (fun all p => set all p.1 p.2) first

end

/-- The configuration of settings, if they have the right types. -/
def Config.ofSettings? (settings : Settings) : Option Config := do
  return {
    log := ← LogSettings.ofValue? (settings.find "log")
    projects := ← Project.allOfValue? (settings.find "projects") }

end SchemaPress
