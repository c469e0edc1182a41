/-!
# Where documents come from
-/

namespace SchemaPress.OpenApi

/-- The kinds of places a document may come from; `other` is none that can be loaded. -/
inductive SourceKind where
  | file
  | bundle
  | url
  | other (name : String)
  deriving DecidableEq, Repr, Inhabited

/-- The name of a kind. -/
def SourceKind.name : SourceKind → String
  | .file => "file"
  | .bundle => "fs"
  | .url => "url"
  | .other name => name

/-- The kind with a given name. -/
def SourceKind.ofName (name : String) : SourceKind :=
  match name with
  | "file" => .file
  | "fs" => .bundle
  | "url" => .url
  | name => .other name

/-- A place a document may come from. -/
structure Source where
  kind : SourceKind
  location : String
  deriving DecidableEq, Repr, Inhabited

end SchemaPress.OpenApi
