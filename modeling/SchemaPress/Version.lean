import SchemaPress.Text.Utf8

/-!
# Version labels
-/

namespace SchemaPress

/-- The data of a build: the version of its module, and named settings. -/
structure BuildInfo where
  version : String
  settings : List (String × String) := []
  deriving DecidableEq, Repr, Inhabited

/-- The first setting with a given name, or nothing. -/
def BuildInfo.setting (info : BuildInfo) (name : String) : String :=
  (info.settings.lookup name).getD ""

/-- The release that this is. -/
def release : String := "0.1.0"

/-- The label of a version.  A tagged version is the label itself.  Any other build is a development
version of the release, with the start of its commit, if known, and a mark for uncommitted changes.
-/
def versionLabel (release : String) (info : Option BuildInfo) : String :=
  match info with
  | none => release
  | some info =>
    if info.version != "" && info.version != "(devel)" then info.version
    else
      let commit := (info.setting "vcs.revision").toUTF8.toList
      release ++ "-dev"
        ++ (if 7 ≤ commit.length then
            "+" ++ String.ofList (Text.Utf8.decode (commit.take 7)) else "")
        ++ (if info.setting "vcs.modified" == "true" then ".dirty" else "")

end SchemaPress
