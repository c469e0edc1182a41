import SchemaPress.Node.Denotation
import SchemaPress.OpenApi.Source
import SchemaPress.Text.Quoted

/-!
# Documents and what may be wrong with them

A `Document` is the bytes of an OpenAPI document with the place they came from.  A `DocumentError`
says that such bytes cannot be read: which fault it is, where, and what caused it.
-/

namespace SchemaPress.OpenApi

/-- The bytes of a document and where they came from. -/
structure Document where
  source : Option Source := none
  raw : ByteArray := .empty
  deriving Inhabited

/-- Why there is no document. -/
inductive NoDocument where
  | noSource
  | empty
  deriving DecidableEq, Repr, Inhabited

/-- The message of an error. -/
def NoDocument.message : NoDocument → String
  | .noSource => "openapi: source is required"
  | .empty => "openapi: raw document is empty"

/-- The document with the given bytes, of which there has to be at least one. -/
def Document.build (source : Option Source) (raw : ByteArray) : Except NoDocument Document :=
  match source with
  | none => .error .noSource
  | some source => if raw.isEmpty then .error .empty else .ok ⟨some source, raw⟩

/-- The location of the source, empty if there is none. -/
def Document.location (d : Document) : String :=
  (d.source.map (·.location)).getD ""

/-- The faults of documents. -/
inductive DocumentFault where
  | malformed
  | missingComponents
  deriving DecidableEq, Repr, Inhabited

/-- The message of a fault. -/
def DocumentFault.message : DocumentFault → String
  | .malformed => "malformed document"
  | .missingComponents => "missing components/schemas"

/-- Stands in a message for details of foreign data that are not described any further. -/
def foreignDetails : String := "<external>"

/-- The causes of a fault. -/
inductive Cause where
  | notMapping
  | tooDeep
  | noVersion
  | unnamed
  | foreign
  | fault (f : DocumentFault)
  | other (text : String)
  | atLine (line : Nat) (cause : Cause)
  | inProperty (name : String) (cause : Cause)
  deriving DecidableEq, Repr, Inhabited

namespace Cause

/-- The message of a cause. -/
def message : Cause → String
  | .notMapping => "document root is not a mapping"
  | .tooDeep => "document nesting too deep"
  | .noVersion => "missing openapi version"
  | .unnamed => "model: name is required"
  | .foreign => foreignDetails
  | .fault f => f.message
  | .other text => text
  | .atLine line cause => "line " ++ Decimal.intText line ++ ": " ++ cause.message
  | .inProperty name cause => "property " ++ Text.quoted name ++ ": " ++ cause.message

/-- The cause behind a part of the document that denotes nothing. -/
def ofNode : NodeError → Cause
  | .tooDeep => .tooDeep
  | .badScalar line => .atLine line .foreign

end Cause

/-- A document that cannot be read. -/
structure DocumentError where
  location : String := ""
  fault : Option DocumentFault := none
  message : String := ""
  cause : Option Cause := none
  deriving DecidableEq, Repr, Inhabited

namespace DocumentError

/-- The message of an error. -/
def text (e : DocumentError) : String :=
  let place := if e.location.isEmpty then "" else e.location ++ ": "
  let fault := (e.fault.map (·.message)).getD ""
  let message := if e.message.isEmpty then "" else ": " ++ e.message
  let cause := (e.cause.map fun c => ": " ++ c.message).getD ""
  "openapi reader: " ++ place ++ fault ++ message ++ cause

/-- Whether an error is a given fault, or was caused by it. -/
def isFault (e : DocumentError) (f : DocumentFault) : Bool :=
  e.fault == some f || e.cause == some (.fault f)

end DocumentError

end SchemaPress.OpenApi
