import SchemaPress.Error
import SchemaPress.Text.Words

/-!
# Bundles

A bundle is a fixed set of files by name.  Directories are only implied by the names of the files in
them.
-/

namespace SchemaPress

/-- Files by name, with slashes in the names. -/
structure Bundle where
  files : List (String × ByteArray) := []
  deriving Inhabited

namespace Bundle

/-- Whether a name can be looked up: parts divided by single slashes, none of them a dot or two
dots. -/
def isName (name : String) : Bool :=
  name == "."
    || ((Text.splitOnChar '/' name.toList).map String.ofList).all fun part =>
      part != "" && part != "." && part != ".."

/-- Whether a name is that of a directory, because a file lies in it. -/
def hasDirectory (b : Bundle) (name : String) : Bool :=
  name == "." || b.files.any fun f => f.1.startsWith (name ++ "/")

/-- The file with a given name. -/
def read (b : Bundle) (name : String) : Except FileError ByteArray :=
  if !isName name then .error ⟨"open", name, .notInBundle⟩
  else
    match b.files.lookup name with
    | some content => .ok content
    | none =>
      if b.hasDirectory name then .error ⟨"read", name, .invalid⟩
      else .error ⟨"open", name, .notInBundle⟩

end Bundle

end SchemaPress
