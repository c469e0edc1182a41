import SchemaPress.Error
import SchemaPress.Path
import SchemaPress.Url

/-!
# Naming a source

`Source.ofFile`, `Source.ofBundle` and `Source.ofUrl` name a source of a given kind; `Source.ofText`
tells from the text itself whether it is a web address or a file.
-/

namespace SchemaPress.OpenApi.Source

/-- A file, by its shortest path. -/
def ofFile (path : String) : Source :=
  ⟨.file, Path.clean path⟩

/-- A file of a bundle. -/
def ofBundle (name : String) : Source :=
  ⟨.bundle, name⟩

/-- A web address. -/
def ofUrl (url : String) : Except SourceError Source :=
  if url.isEmpty then .error .emptyUrl
  else
    match Url.parse? true url with
    | none => .error (.invalidUrl url)
    | some parsed => if parsed.isWeb then .ok ⟨.url, url⟩ else .error (.scheme parsed.scheme)

/-- A web address if the text starts like one, and a file otherwise. -/
def ofText (text : String) : Except SourceError Source :=
  let text := Text.trim text
  if text.isEmpty then .error .empty
  else if text.startsWith "http://" || text.startsWith "https://" then ofUrl text
  else .ok (ofFile text)

end SchemaPress.OpenApi.Source
