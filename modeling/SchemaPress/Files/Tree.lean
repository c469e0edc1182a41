import SchemaPress.Error
import SchemaPress.Path

/-!
# Trees of files

A `FileTree` holds files, directories and symbolic links, each under the names that lead to it from
the root, and knows which directory paths start from.  `FileTree.locate` follows a path, links
included, to the place it leads to.

The operations are those that the rest of the program needs: `read`, `write`, `makeDirectories` and
`remove`, and for a file that is to appear as a whole `createDraft`, `setMode` and `rename`.

Two limits of an operating system are left out: that a path has at most 4095 bytes, and that it has
no NUL.  What is said about paths here holds of those within both limits; each single name is held
against `maxNameSize`.
-/

namespace SchemaPress

/-- An entry of a tree. -/
inductive FileEntry where
  | file (content : ByteArray) (mode : Nat)
  | directory
  | link (target : String)
  deriving Inhabited

/-- The entries of a tree by their names from the root, and the names of the working directory. -/
structure FileTree where
  entries : List (List String × FileEntry) := []
  home : List String := []
  deriving Inhabited

/-- The end of a path: an entry, or a name in a directory without an entry. -/
inductive Place where
  | taken (names : List String) (entry : FileEntry)
  | vacant (names : List String)
  deriving Inhabited

namespace FileTree

/-- The mode of a published file. -/
def readable : Nat := 0o644

/-- The mode of a draft. -/
def ownerOnly : Nat := 0o600

/-- The most links on a path. -/
def maxLinks : Nat := 40

/-- The most bytes in a name. -/
def maxNameSize : Nat := 255

/-- The most names that are tried for a draft. -/
def maxDrafts : Nat := 10000

/-- The entry at `names`; the root is a directory. -/
def get? (t : FileTree) (names : List String) : Option FileEntry :=
  if names.isEmpty then some .directory else t.entries.lookup names

/-- Sets the entry at `names`. -/
def put (t : FileTree) (names : List String) (entry : FileEntry) : FileTree :=
  if t.entries.any (·.1 == names) then
    { t with entries := t.entries.map fun e => if e.1 == names then (names, entry) else e }
  else { t with entries := t.entries ++ [(names, entry)] }

/-- Removes the entry at `names`. -/
def erase (t : FileTree) (names : List String) : FileTree :=
  { t with entries := t.entries.filter fun e => e.1 != names }

/-- The absolute path of `path`. -/
def absolute (t : FileTree) (path : String) : String :=
  Path.clean (if Path.isRooted path then path else Path.ofNames true t.home ++ "/" ++ path)

/-- Follows names from a directory up to the first link.  A link in the middle of a path is always
followed, one at its end if `follow` says so; `through` goes on from its target, and is missing if
there have been too many links. -/
def locateUpTo (t : FileTree) (follow : Bool)
    (through : Option (List String → List String → Except FileFault Place))
    (directory : List String) : List String → Except FileFault Place
  | [] => .ok (.taken directory .directory)
  | name :: rest =>
    if name == ".." then t.locateUpTo follow through directory.dropLast rest
    else if maxNameSize < name.utf8ByteSize then .error .nameTooLong
    else
      let names := directory ++ [name]
      match t.get? names with
      | none => if rest.isEmpty then .ok (.vacant names) else .error .missing
      | some .directory => t.locateUpTo follow through names rest
      | some (.file content mode) =>
        if rest.isEmpty then .ok (.taken names (.file content mode)) else .error .notDirectory
      | some (.link target) =>
        if rest.isEmpty && !follow then .ok (.taken names (.link target))
        else
          match through with
          | none => .error .tooManyLinks
          | some through =>
            through (if Path.isRooted target then [] else directory) (Path.names target ++ rest)

/-- Follows names from a directory, through at most the given number of links. -/
def locate (t : FileTree) (follow : Bool) :
    Nat → List String → List String → Except FileFault Place
  | 0 => t.locateUpTo follow none
  | links + 1 => t.locateUpTo follow (some (t.locate follow links))

/-- The place of a path; the empty path has none. -/
def find (t : FileTree) (follow : Bool) (path : String) : Except FileFault Place :=
  if path.isEmpty then .error .missing
  else t.locate follow maxLinks (if Path.isRooted path then [] else t.home) (Path.names path)

/-- Fails if `path` has no entry. -/
def stat (t : FileTree) (path : String) : Except FileError Unit :=
  match t.find true path with
  | .ok (.taken _ _) => .ok ()
  | .ok (.vacant _) => .error ⟨"stat", path, .missing⟩
  | .error fault => .error ⟨"stat", path, fault⟩

/-- The content of a file. -/
def read (t : FileTree) (path : String) : Except FileError ByteArray :=
  match t.find true path with
  | .ok (.taken _ (.file content _)) => .ok content
  | .ok (.taken _ _) => .error ⟨"read", path, .isDirectory⟩
  | .ok (.vacant _) => .error ⟨"open", path, .missing⟩
  | .error fault => .error ⟨"open", path, fault⟩

/-- The content of a file, with the absolute path in the error. -/
def readAbsolute (t : FileTree) (path : String) : Except FileError ByteArray :=
  t.read (t.absolute path)

/-- Writes a file, through a link if one lies there.  A new file gets the given mode, an old one
keeps its own. -/
def write (t : FileTree) (path : String) (content : ByteArray) (mode : Nat) :
    Except FileError FileTree :=
  match t.find true path with
  | .ok (.taken names (.file _ old)) => .ok (t.put names (.file content old))
  | .ok (.taken _ _) => .error ⟨"open", path, .isDirectory⟩
  | .ok (.vacant names) => .ok (t.put names (.file content mode))
  | .error fault => .error ⟨"open", path, fault⟩

/-- Makes a directory whose parent exists, unless there is one already. -/
def makeDirectory (t : FileTree) (path : String) : Except FileError FileTree :=
  match t.find false path with
  | .ok (.taken _ .directory) => .ok t
  | .ok (.taken _ (.file _ _)) => .error ⟨"mkdir", path, .notDirectory⟩
  | .ok (.taken _ (.link _)) =>
    match t.find true path with
    | .ok (.taken _ .directory) => .ok t
    | .ok (.taken _ _) => .error ⟨"mkdir", path, .notDirectory⟩
    | _ => .error ⟨"mkdir", path, .alreadyExists⟩
  | .ok (.vacant names) => .ok (t.put names .directory)
  | .error fault => .error ⟨"mkdir", path, fault⟩

/-- Makes a directory and those it lies in; `done` are the names already dealt with.  What has been
made stays, also if the next directory cannot be made. -/
def makeAll (t : FileTree) (rooted : Bool) (done : List String) :
    List String → FileTree × Except FileError Unit
  | [] => (t, .ok ())
  | name :: rest =>
    match t.makeDirectory (Path.ofNames rooted (done ++ [name])) with
    | .ok t => t.makeAll rooted (done ++ [name]) rest
    | .error e => (t, .error e)

/-- Makes the directories on `path` that do not exist: the tree after it, and the error if one
cannot be made. -/
def ensureDirectories (t : FileTree) (path : String) : FileTree × Except FileError Unit :=
  t.makeAll (Path.isRooted path) [] (Path.cleanNames path)

/-- The tree of `ensureDirectories`, if that succeeds. -/
def makeDirectories (t : FileTree) (path : String) : Except FileError FileTree :=
  let (made, outcome) := t.ensureDirectories path
  outcome.map fun () => made

/-- The name of a draft: a number between two parts. -/
def draftName (stem ending : String) (n : Nat) : String :=
  stem ++ Decimal.intText n ++ ending

/-- Makes an empty draft in a directory under the first name that is free. -/
def createDraft (t : FileTree) (directory stem ending : String) :
    Except FileError (FileTree × String) :=
  let path := fun n => directory ++ "/" ++ draftName stem ending n
  let free := fun n =>
    match t.find false (path n) with
    | .ok (.vacant names) => some (t.put names (.file .empty ownerOnly), path n)
    | _ => none
  match (List.range maxDrafts).findSome? free with
  | some draft => .ok draft
  | none =>
    match t.find false (path 0) with
    | .error fault => .error ⟨"open", path 0, fault⟩
    | .ok _ => .error ⟨"createtemp", directory ++ "/" ++ stem ++ "*" ++ ending, .inUse⟩

/-- Sets the mode of a file. -/
def setMode (t : FileTree) (path : String) (mode : Nat) : Except FileError FileTree :=
  match t.find true path with
  | .ok (.taken names (.file content _)) => .ok (t.put names (.file content mode))
  | .ok (.taken _ _) => .ok t
  | .ok (.vacant _) => .error ⟨"chmod", path, .missing⟩
  | .error fault => .error ⟨"chmod", path, fault⟩

/-- Moves a file to `target`, where it replaces a file or a link. -/
def rename (t : FileTree) (source target : String) : Except FileError FileTree :=
  match t.find false source, t.find false target with
  | .ok (.taken _ _), .ok (.taken _ .directory) =>
    .error ⟨"rename", source ++ " " ++ target, .alreadyExists⟩
  | .ok (.taken old entry), .ok (.taken new _) | .ok (.taken old entry), .ok (.vacant new) =>
    .ok ((t.erase old).put new entry)
  | .ok (.vacant _), _ => .error ⟨"rename", source ++ " " ++ target, .missing⟩
  | .error fault, _ | _, .error fault => .error ⟨"rename", source ++ " " ++ target, fault⟩

/-- Removes the entry at `path` and those below it; a link is not followed. -/
def remove (t : FileTree) (path : String) : FileTree :=
  match t.find false path with
  | .ok (.taken names _) => { t with entries := t.entries.filter fun e => !names.isPrefixOf e.1 }
  | _ => t

/-- Sets a link at `path`, if that has no entry and its directory exists. -/
def link (t : FileTree) (path target : String) : FileTree :=
  match t.find false path with
  | .ok (.vacant names) => t.put names (.link target)
  | _ => t

/-- The entries of the working directory, by their names from there. -/
def below (t : FileTree) : List (List String × FileEntry) :=
  t.entries.filterMap fun e =>
    if t.home.isPrefixOf e.1 && e.1.length != t.home.length then some (e.1.drop t.home.length, e.2)
    else none

/-- All paths in the working directory in order, those of directories with a slash behind them. -/
def paths (t : FileTree) : List String :=
  let path := fun (e : List String × FileEntry) =>
    match e.2 with
    | .directory => Path.ofNames false e.1 ++ "/"
    | _ => Path.ofNames false e.1
  (t.below.map path).mergeSort fun a b => decide (a ≤ b)

end FileTree

end SchemaPress
