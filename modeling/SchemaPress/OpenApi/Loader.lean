import SchemaPress.Files.Bundle
import SchemaPress.Session
import SchemaPress.Url

/-!
# Loading documents

`Loader.load` fetches the bytes of a source, from the files of the session, a bundle or the web, and
makes a document of them.  A byte order mark at the start is left out.
-/

namespace SchemaPress.OpenApi

/-- An answer: the code and the line of its status, and a body, which may have broken off with an
error. -/
structure Answer where
  code : Int
  status : String
  body : ByteArray
  broken : Option String := none
  deriving Inhabited

/-- A way to reach the web: what is answered at an address, if anything, and whether requests have a
deadline. -/
structure Transport where
  answer : String → Option Answer
  deadline : Bool

/-- The bundle and the transport of a loader; files are those of the session. -/
structure Loader where
  bundle : Option Bundle := none
  transport : Option Transport := none

/-- The most bytes that are taken from the web. -/
def maxDocumentSize : Nat := 32 * 1024 * 1024

/-- The forms of documents that are asked for. -/
def acceptedForms : String := "application/json, application/yaml;q=0.9, */*;q=0.5"

/-- The bytes that mark a text as UTF-8 at its start. -/
def byteOrderMark : ByteArray := ⟨#[0xEF, 0xBB, 0xBF]⟩

/-- Bytes without the byte order mark at their start. -/
def withoutMark (bytes : ByteArray) : ByteArray :=
  if (bytes.extract 0 3).data == byteOrderMark.data then bytes.extract 3 bytes.size else bytes

/-- The first `limit` bytes of the body, or the error if it breaks off before. -/
def Answer.bodyUpTo (a : Answer) (limit : Nat) : Except String ByteArray :=
  if a.body.size < limit then
    match a.broken with
    | some text => .error text
    | none => .ok a.body
  else .ok (a.body.extract 0 limit)

/-- The body of an answer, if the answer is a success and not too large.  One byte more than may be
taken is read, so that a larger body is told from one that just fits. -/
def Answer.content (a : Answer) (url : String) : Except Error ByteArray :=
  if a.code < 200 || a.code ≥ 300 then .error (.load (.status url a.status))
  else
    match a.bodyUpTo (maxDocumentSize + 1) with
    | .error text => .error (.within "openapi loader: read body" (.other text))
    | .ok bytes =>
      if bytes.size > maxDocumentSize then .error (.load (.tooLarge url maxDocumentSize))
      else .ok bytes

namespace Loader

/-- Reads a file of the session. -/
def fetchFile (path : String) : Job ByteArray := do
  if path.isEmpty then throw (.load .noPath)
  Job.checkpoint
  Job.within ("openapi loader: read " ++ path) <|
    Job.ofExcept .file ((← get).files.readAbsolute path)

/-- Reads a file of a bundle. -/
def fetchBundled (bundle : Bundle) (name : String) : Job ByteArray := do
  if name.isEmpty then throw (.load .noBundlePath)
  Job.checkpoint
  Job.within ("openapi loader: read " ++ name) <| Job.ofExcept .file (bundle.read name)

/-- Requests a web address. -/
def fetchUrl (transport : Transport) (url : String) : Job ByteArray := do
  if url.isEmpty then throw (.load .noUrl)
  if (Url.parseReference? url).isNone then throw (.load .badRequest)
  Job.request { method := "GET", accept := acceptedForms, deadline := transport.deadline }
  match transport.answer url with
  | none => throw (.load (.noAnswer url))
  | some answer => Job.ofExcept id (answer.content url)

/-- The bytes of a source. -/
def fetch (l : Loader) (source : Source) : Job ByteArray :=
  match source.kind with
  | .file => fetchFile source.location
  | .bundle =>
    match l.bundle with
    | some bundle => fetchBundled bundle source.location
    | none => throw (.load .noBundle)
  | .url =>
    match l.transport with
    | some transport => fetchUrl transport source.location
    | none => throw (.load .noTransport)
  | .other name => throw (.load (.unknownKind name))

/-- The document of a source. -/
def load (l : Loader) (source : Option Source) : Job Document := do
  match source with
  | none => throw (.load .noSource)
  | some source =>
    Job.checkpoint
    let bytes ← l.fetch source
    Job.ofExcept .noDocument (Document.build (some source) (withoutMark bytes))

end Loader

end SchemaPress.OpenApi
