import SchemaPress.Command.Run
import SchemaPress.Version

/-!
# The program

The program looks at the files that a command needs, runs the command on them, and writes the files
that have changed.
-/

namespace SchemaPress.Program

open Command

/-- The names of a path from the root. -/
def absoluteNames (files : FileTree) (path : String) : List String :=
  Path.cleanNames (files.absolute path)

/-- Adds to a tree what lies at a path, with the directories above it. -/
def observe (files : FileTree) (path : String) : IO FileTree := do
  let here ← IO.currentDir
  let mut files := files
  let names := absoluteNames files path
  for n in List.range names.length do
    let names := names.take (n + 1)
    let place := here / Path.ofNames true names
    if ← place.isDir then
      files := files.put names .directory
    else if ← place.pathExists then
      files := files.put names (.file (← IO.FS.readBinFile place) FileTree.readable)
  return files

/-- The files that a command needs to know before it runs. -/
def observeAll (environment : List String) (options : GenerateOptions) : IO FileTree := do
  let home := Path.cleanNames (← IO.currentDir).toString
  let files ← observe { home } "."
  let files ← observe files options.config
  match loadConfig files environment options with
  | .error _ => return files
  | .ok config =>
    config.projects.foldlM (fun files (_, project) => do
      let files ← if project.input.fromUrl then pure files else observe files project.input.target
      observe files (Path.join project.output.target outputFile)) files

/-- Writes a file beside its place and then moves it there. -/
def store (names : List String) (content : ByteArray) : IO Unit := do
  let here ← IO.currentDir
  let place := here / Path.ofNames true names
  let draft := here / (Path.ofNames true names ++ ".tmp")
  IO.FS.createDirAll (here / Path.ofNames true names.dropLast)
  IO.FS.writeBinFile draft content
  IO.FS.rename draft place

/-- Writes the files that have changed. -/
def storeChanges (before after : FileTree) : IO Unit := do
  for (names, entry) in after.entries do
    match entry, before.get? names with
    | .file content _, some (.file old _) => if content != old then store names content
    | .file content _, _ => store names content
    | _, _ => pure ()

/-- The variables of the environment. -/
def environment : IO (List String) :=
  tryCatch
    (do
      let bytes ← IO.FS.readBinFile "/proc/self/environ"
      return (Text.splitOnChar '\x00' (Text.Utf8.decode bytes.toList)).map String.ofList)
    fun _ => return []

/-- The time, which the system gives to the status of a program when it is looked at. -/
def now : IO Timestamp :=
  tryCatch
    (do
      let status := (← IO.currentDir) / "/proc/self/status"
      return .ofUnix (← status.metadata).modified.sec.toNat)
    fun _ => return .ofUnix 0

/-- The usage of the program. -/
def usage : String :=
  "Usage: typegen [version | generate] [flags]\n"

/-- Runs the command line, and gives the number with which the program ends. -/
def run (args : List String) : IO UInt32 := do
  match Invocation.parse? args with
  | none =>
    IO.eprint usage
    return 80
  | some invocation =>
    if invocation.help then
      IO.print usage
      return 0
    let environment ← environment
    let files ← observeAll environment invocation.options
    let surroundings : Surroundings :=
      { version := versionLabel release (some { version := "(devel)" })
        environment
        transport := some ⟨fun _ => none, true⟩
        time := ← now }
    let (outcome, session) := (invocation.run surroundings).run { files }
    storeChanges files session.files
    IO.print outcome.printed
    IO.eprint outcome.logged
    match outcome.error with
    | none => return 0
    | some e =>
      IO.eprintln (errorLine e)
      return 1

end SchemaPress.Program

/-- Runs the program. -/
def main (args : List String) : IO UInt32 :=
  SchemaPress.Program.run args
