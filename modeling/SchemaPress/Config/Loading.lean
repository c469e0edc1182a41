import SchemaPress.Config.Environment
import SchemaPress.Config.Validation
import SchemaPress.Files.Tree

/-!
# Loading a configuration

A configuration is put together from defaults, a file and the environment, each laid over the one
before, and has to be valid.  Where the file has several fields for one name, the order in which
fields are visited decides.
-/

namespace SchemaPress.Config

/-- The settings that everything else is laid over. -/
def defaults : Settings :=
  [("log", .map [("level", .text "info"), ("pretty", .bool true)])]

/-- The bytes of a configuration file. -/
def readFile (files : FileTree) (path : String) : Except Error ByteArray :=
  match files.stat path with
  | .error e => .error (.within ("config: " ++ path) (.file e))
  | .ok () =>
    match files.read (Path.clean path) with
    | .error e => .error (.within ("config: read " ++ path) (.file e))
    | .ok raw => .ok raw

/-- The configuration with its level in lower case and without blanks around it. -/
def normalized (c : Config) : Config :=
  { c with log := { c.log with level := Text.lower (Text.trim c.log.level) } }

/-- Settings with the log settings of an environment laid over them. -/
def withOverrides (settings changes : Settings) : Settings :=
  if changes.isEmpty then settings else Settings.merge settings [("log", .map changes)]

/-- The configuration of a payload and an environment, not yet checked. -/
def assemble (raw : ByteArray) (environment : List String) (order : Settings.Order) :
    Except ConfigError Config :=
  match Settings.parse? raw with
  | none => .error .unreadable
  | some given => do
    let changes ← Environment.overrides environment
    let settings := Settings.merge defaults (Settings.arrange order given)
    match ofSettings? (withOverrides settings changes) with
    | none => .error .unfit
    | some config => .ok config.normalized

/-- The configuration of a payload and an environment. -/
def ofBytes (raw : ByteArray) (environment : List String)
    (order : Settings.Order := .written) : Except ConfigError Config := do
  let config ← assemble raw environment order
  config.validate
  return config

/-- The configuration of a file and an environment. -/
def ofFile (files : FileTree) (path : String) (environment : List String)
    (order : Settings.Order := .written) : Except Error Config := do
  let raw ← readFile files path
  (ofBytes raw environment order).mapError .config

end SchemaPress.Config
