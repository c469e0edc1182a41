import SchemaPress.Config.Basic
import SchemaPress.Text.Casing
import SchemaPress.Text.Words

/-!
# Arguments of the command line

`Invocation.parse?` reads the arguments of the command line.  There are two commands, of which
`generate` is the one that is meant if none is named; its flags may also stand in front of it.
-/

namespace SchemaPress.Command

/-- The options of `generate`, with the values that they have if no flag is given. -/
structure GenerateOptions where
  config : String := Config.standardFile
  schema : String := ""
  output : Option String := none
  projects : List String := []
  interactive : Bool := false
  check : Bool := false
  honorRequired : Bool := false
  integerAsNumber : Bool := false
  comments : Bool := false
  typesOnly : Bool := false
  logLevel : String := ""
  pretty : Bool := false
  jsonLogs : Bool := false
  deriving DecidableEq, Repr, Inhabited

/-- A flag that is on or off. -/
inductive Switch where
  | help
  | interactive
  | check
  | honorRequired
  | integerAsNumber
  | comments
  | typesOnly
  | pretty
  | jsonLogs
  deriving DecidableEq, Repr, Inhabited

/-- A flag with a value. -/
inductive Setting where
  | config
  | schema
  | output
  | projects
  | logLevel
  deriving DecidableEq, Repr, Inhabited

/-- A flag. -/
inductive Flag where
  | switch (s : Switch)
  | setting (s : Setting)
  deriving DecidableEq, Repr, Inhabited

/-- The flags of `generate` by name. -/
def flagNames : List (String × Flag) :=
  [("help", .switch .help), ("config", .setting .config), ("schema", .setting .schema),
    ("output", .setting .output), ("projects", .setting .projects),
    ("interactive", .switch .interactive), ("check", .switch .check),
    ("honor-required", .switch .honorRequired), ("integer-as-number", .switch .integerAsNumber),
    ("comments", .switch .comments), ("types-only", .switch .typesOnly),
    ("log-level", .setting .logLevel), ("pretty", .switch .pretty),
    ("json-logs", .switch .jsonLogs)]

/-- The flags of `generate` by letter. -/
def flagLetters : List (Char × Flag) :=
  [('h', .switch .help), ('c', .setting .config), ('p', .setting .projects),
    ('i', .switch .interactive)]

/-- The command on the command line. -/
inductive Choice where
  | none
  | version
  | generate
  deriving DecidableEq, Repr, Inhabited

/-- A command line: the command, whether help is wanted, and the options. -/
structure Invocation where
  choice : Choice := .none
  help : Bool := false
  options : GenerateOptions := {}
  deriving DecidableEq, Repr, Inhabited

namespace Invocation

/-- Whether the command has the flag; `version` has no flag but `help`. -/
def knows (i : Invocation) (flag : Flag) : Bool :=
  i.choice != .version || flag == .switch .help

/-- The flag with a given name. -/
def named? (i : Invocation) (name : String) : Option Flag :=
  (flagNames.lookup name).filter i.knows

/-- The flag with a given letter. -/
def lettered? (i : Invocation) (letter : Char) : Option Flag :=
  (flagLetters.lookup letter).filter i.knows

/-- Sets a switch; `help` is set to `true` in either case. -/
def turn (i : Invocation) (on : Bool) : Switch → Invocation
  | .help => { i with help := true }
  | .interactive => { i with options := { i.options with interactive := on } }
  | .check => { i with options := { i.options with check := on } }
  | .honorRequired => { i with options := { i.options with honorRequired := on } }
  | .integerAsNumber => { i with options := { i.options with integerAsNumber := on } }
  | .comments => { i with options := { i.options with comments := on } }
  | .typesOnly => { i with options := { i.options with typesOnly := on } }
  | .pretty => { i with options := { i.options with pretty := on } }
  | .jsonLogs => { i with options := { i.options with jsonLogs := on } }

/-- The truth value of the text of a switch. -/
def switchValue? (s : String) : Option Bool :=
  match Text.lower s with
  | "true" | "1" | "yes" => some true
  | "false" | "0" | "no" => some false
  | _ => none

/-- The parts of a text between its commas, without an empty one at the end.  A backslash before a
comma makes it a part of the text.  The current part is `part`, in reverse. -/
def splitList (part : List Char) : List Char → List String
  | [] => if part.isEmpty then [] else [String.ofList part.reverse]
  | '\\' :: c :: rest => splitList (if c == ',' then c :: part else c :: '\\' :: part) rest
  | c :: rest =>
    if c == ',' then String.ofList part.reverse :: splitList [] rest
    else splitList (c :: part) rest

/-- Whether an argument can be the value of a flag. -/
def isValue (s : String) : Bool :=
  s == "-" || !s.startsWith "-"

/-- Sets the option of a flag to the value. -/
def give (i : Invocation) (value : String) : Setting → Invocation
  | .config => { i with options := { i.options with config := value } }
  | .schema => { i with options := { i.options with schema := value } }
  | .output => { i with options := { i.options with output := some value } }
  | .logLevel => { i with options := { i.options with logLevel := value } }
  | .projects =>
    let projects := i.options.projects ++ splitList [] value.toList
    { i with options := { i.options with projects } }

/-- Sets the option of a flag to the next argument, if that `isValue`. -/
def giveNext? (i : Invocation) (value : String) (s : Setting) : Option Invocation :=
  let parts := if s == .projects then splitList [] value.toList else [value]
  if parts.all isValue then some (i.give value s) else none

/-- Reads the letters after a dash, and the last flag if its value is to follow. -/
def letters? (i : Invocation) : List Char → Option (Invocation × Option Setting)
  | [] => some (i, none)
  | c :: rest =>
    match i.lettered? c with
    | none => none
    | some (.switch s) => (i.turn true s).letters? rest
    | some (.setting s) =>
      if rest.isEmpty then some (i, some s) else some (i.give (String.ofList rest) s, none)

/-- Reads a name after two dashes, with the value after `=` if there is one, and the flag if its
value is to follow. -/
def longFlag? (i : Invocation) (cs : List Char) : Option (Invocation × Option Setting) :=
  let name := String.ofList (cs.takeWhile (· != '='))
  let value :=
    match cs.dropWhile (· != '=') with
    | _ :: value => some (String.ofList value)
    | [] => none
  match i.named? name, value with
  | none, _ => none
  | some (.switch s), none => some (i.turn true s, none)
  | some (.switch s), some value => (switchValue? value).map fun on => (i.turn on s, none)
  | some (.setting s), none => some (i, some s)
  | some (.setting s), some value => some (i.give value s, none)

/-- Reads an argument that is no flag, which is the command if there was none. -/
def word? (i : Invocation) (word : String) : Option Invocation :=
  if i.choice != .none then none
  else
    match word with
    | "version" => some { i with choice := .version }
    | "generate" => some { i with choice := .generate }
    | _ => none

/-- Reads arguments none of which is a flag. -/
def words? (i : Invocation) (words : List String) : Option Invocation :=
  words.foldlM word? i

/-- Reads a flag or a word, and the flag if its value is to follow. -/
def argument? (i : Invocation) (arg : String) : Option (Invocation × Option Setting) :=
  match arg.toList with
  | ['-'] => none
  | '-' :: '-' :: name => i.longFlag? name
  | '-' :: letters => i.letters? letters
  | _ => (i.word? arg).map (·, none)

/-- Reads the arguments; the value of `waiting` is to follow first. -/
def read? (i : Invocation) (waiting : Option Setting) : List String → Option Invocation
  | [] => if waiting.isNone then some i else none
  | arg :: rest =>
    match waiting with
    | some s => (i.giveNext? arg s).bind fun i => i.read? none rest
    | none =>
      if arg == "--" then i.words? rest
      else
        match i.argument? arg with
        | some (i, waiting) => i.read? waiting rest
        | none => none

/-- Reads the arguments of the command line. -/
def parse? (args : List String) : Option Invocation :=
  read? {} none args

end Invocation

end SchemaPress.Command
