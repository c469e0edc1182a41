import SchemaPress.Files.Tree
import SchemaPress.Json.Printer
import SchemaPress.Json.Reader
import SchemaPress.OpenApi.Locate
import SchemaPress.Text.Utf8
import SchemaPress.Value.Exchange

/-!
# Golden files

Golden files hold expected results.  They are read as they are, compared as values, and written
anew only when an update is asked for.
-/

namespace SchemaPress.Golden

open OpenApi

/-- The document in a file. -/
def document (files : FileTree) (path : String) : Except Error Document :=
  if path.isEmpty then .error (.other "testsupport: document path is required")
  else
    match files.read path with
    | .error e => .error (.within "testsupport: read document" (.file e))
    | .ok raw =>
      match Document.build (some (.ofFile path)) raw with
      | .error e => .error (.within "testsupport: new document" (.noDocument e))
      | .ok document => .ok document

/-- The value of the JSON text in a file. -/
def value? (files : FileTree) (path : String) : Option Value := do
  let raw ← (files.read path).toOption
  (← Json.parse? (Text.Utf8.decode raw.toList)).toValue?

/-- Writes a file, in a directory that is made if there is none. -/
def store? (files : FileTree) (path : String) (content : ByteArray) : Option FileTree := do
  let files ← (files.makeDirectories (Path.parent path)).toOption
  (files.write path content FileTree.readable).toOption

/-- Writes a file if an update is asked for, and tells whether it was written. -/
def write? (update : Bool) (files : FileTree) (path : String) (content : ByteArray) :
    Option (FileTree × Bool) :=
  if update then (store? files path content).map (·, true) else some (files, false)

/-- Writes a value as indented JSON if an update is asked for. -/
def writeValue? (update : Bool) (files : FileTree) (path : String) (value : Value) :
    Option FileTree :=
  if update then
    value.toJson?.bind fun json => store? files path (json.indented ++ "\n").toUTF8
  else some files

/-- Whether two floats are the same number. -/
def sameNumber : Decimal.Binary64 → Decimal.Binary64 → Bool
  | .nan, .nan => false
  | x, y => x == y || (x.isZero && y.isZero)

mutual

/-- Whether two values are the same, in which the order of fields does not matter. -/
def same : Value → Value → Bool
  | .null, .null => true
  | .bool a, .bool b => a == b
  | .int a, .int b => a == b
  | .float x, .float y => sameNumber x y
  | .text s, .text t => s == t
  | .time s, .time t => s == t
  | .list xs, .list ys => sameItems xs ys
  | .map fs, .map gs => fs.length == gs.length && sameFields fs gs
  | _, _ => false

/-- Whether two lists have the same items. -/
def sameItems : List Value → List Value → Bool
  | [], [] => true
  | x :: xs, y :: ys => same x y && sameItems xs ys
  | _, _ => false

/-- Whether each field of the first list is in the second one. -/
def sameFields : List (String × Value) → List (String × Value) → Bool
  | [], _ => true
  | (name, v) :: rest, gs =>
    (match gs.lookup name with
      | some w => same v w
      | none => false) && sameFields rest gs

end

end SchemaPress.Golden
