import SchemaPress.Text.Words

/-!
# File paths

A path is a text in which slashes divide the names of directories.  `Path.clean` gives the shortest
path that means the same, `Path.join` puts one path behind another, and `Path.parent` is the
directory in which something lies.
-/

namespace SchemaPress.Path

/-- Whether a path starts at the root. -/
def isRooted (path : String) : Bool :=
  path.startsWith "/"

/-- The names of a path, the empty ones and the dots for a directory itself left out. -/
def names (path : String) : List String :=
  ((Text.splitOnChar '/' path.toList).map String.ofList).filter fun n => n != "" && n != "."

/-- One more name behind names in reverse: two dots take the last name away, if there is one that
can be taken.  Below the root there is nothing to take. -/
def step (rooted : Bool) (back : List String) (name : String) : List String :=
  if name == ".." then
    match back with
    | [] => if rooted then [] else [".."]
    | last :: rest => if last == ".." then ".." :: last :: rest else rest
  else name :: back

/-- The names of the shortest path that means the same. -/
def cleanNames (path : String) : List String :=
  ((names path).foldl (step (isRooted path)) []).reverse

/-- The path with the given names. -/
def ofNames (rooted : Bool) (names : List String) : String :=
  let body := "/".intercalate names
  if rooted then "/" ++ body else if names.isEmpty then "." else body

/-- The shortest path that means the same. -/
def clean (path : String) : String :=
  ofNames (isRooted path) (cleanNames path)

/-- A path behind a directory; an empty part does not count. -/
def join (directory path : String) : String :=
  if directory.isEmpty && path.isEmpty then ""
  else if directory.isEmpty then clean path
  else clean (directory ++ "/" ++ path)

/-- The directory in which something lies. -/
def parent (path : String) : String :=
  ofNames (isRooted path) (cleanNames path).dropLast

end SchemaPress.Path
