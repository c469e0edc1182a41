import SchemaPress.Error
import SchemaPress.Node.OfJson
import SchemaPress.Json.Reader
import SchemaPress.OpenApi.Schema
import SchemaPress.OpenApi.Skip
import SchemaPress.Session
import SchemaPress.Yaml.Document

/-!
# Reading the models of a document

`readSchema` reads one entry of `components.schemas`: it becomes a model, or it is skipped.
`readModels` reads a whole document: the models and the skips of all entries, in order.  Whatever is
skipped is logged as a warning.  References are never followed.
-/

namespace SchemaPress.OpenApi

/-- The options of the reader. -/
structure ReaderOptions where
  /-- Whether an integer counts as a number. -/
  integerAsNumber : Bool := false
  deriving DecidableEq, Repr, Inhabited

/-- The models of a document and the skips. -/
structure ReadResult where
  models : List Model := []
  skipped : List Skip := []
  deriving Inhabited

/-- The warning for a skip. -/
def Skip.event (s : Skip) : Log.Event :=
  let property := if s.property.isEmpty then [] else [("property", .text s.property)]
  let target := if s.target.isEmpty then [] else [("ref", .text s.target)]
  { level := .warn
    fields := [("schema", .text s.schema), ("reason", .text s.reason.name)] ++ property ++ target
    message := s.notice }

/-! ### Schemas -/

/-- A part of a document as a schema, besides what it denotes.  `none` is a part that is no mapping.
-/
def decodeSchema (anchors : Anchors) (node : Node) : Except Cause (Option (SchemaRef × Value)) :=
  match node.resolve? anchors with
  | some (.mapping _) => do
    let raw ← (node.value anchors).mapError .ofNode
    match raw.toJson?.bind SchemaRef.ofJson? with
    | some ref => .ok (some (ref, raw))
    | none => .error .foreign
  | _ => .ok none

/-- The metadata of a schema. -/
def Schema.metadata (s : Schema) (raw : Value) : Metadata :=
  { title := s.title
    description := s.description
    nullable := s.allowsNull
    required := s.required
    extensions := s.extensions
    raw }

/-- The constraints of a schema.  `minLength` is present if `raw` has a field of that name or it is
not zero. -/
def Schema.constraints (s : Schema) (raw : Value) : Constraints :=
  { description := s.description
    format := s.format
    nullable := s.allowsNull
    minimum := s.minimum
    maximum := s.maximum
    minLength :=
      if (raw.field? "minLength").isSome || s.minLength != 0 then some s.minLength else none
    maxLength := s.maxLength
    pattern := s.pattern
    enum := if s.enum.isEmpty then none else some s.enum
    default := s.default
    extensions := s.extensions
    raw }

/-- Reads a property of a schema: it is kept, or skipped. -/
def readProperty (options : ReaderOptions) (anchors : Anchors) (schema : String) (parent : Metadata)
    (entry : Entry) : Except Cause (Property ⊕ Skip) := do
  match ← decodeSchema anchors entry.node with
  | none => .ok (.inr { schema, property := entry.key, reason := .untyped })
  | some (.reference target, _) =>
    .ok (.inr { schema, property := entry.key, reason := .reference, target })
  | some (.schema s, raw) =>
    match s.properTypes with
    | [] => .ok (.inr { schema, property := entry.key, reason := .untyped })
    | types =>
      let type :=
        match types with
        | [type] => PropertyType.parse options.integerAsNumber type
        | _ => .unsupported
      .ok <| .inl
        { name := entry.key
          type
          required := parent.isRequired entry.key
          constraints := s.constraints raw }

/-- The properties of a schema, and what was skipped among them, also if reading failed. -/
structure PropertiesReading where
  kept : List Property := []
  skips : List Skip := []
  cause : Option Cause := none
  deriving Inhabited

/-- Reads the properties of a schema in order, up to the first one that cannot be read. -/
def readProperties (options : ReaderOptions) (anchors : Anchors) (schema : String)
    (parent : Metadata) : List Entry → PropertiesReading
  | [] => {}
  | entry :: rest =>
    match readProperty options anchors schema parent entry with
    | .error cause => { cause := some (.inProperty entry.key cause) }
    | .ok (.inl property) =>
      let more := readProperties options anchors schema parent rest
      { more with kept := property :: more.kept }
    | .ok (.inr skip) =>
      let more := readProperties options anchors schema parent rest
      { more with skips := skip :: more.skips }

/-- The model of an entry, if it gives one, and the skips, also of a reading that failed. -/
structure SchemaReading where
  skips : List Skip := []
  outcome : Except Cause (Option Model) := .ok none
  deriving Inhabited

/-- An entry that is skipped. -/
def SchemaReading.skip (schema : String) (reason : SkipReason) (target : String := "") :
    SchemaReading :=
  { skips := [{ schema, reason, target }] }

/-- Reads an entry of `components.schemas`. -/
def readSchema (options : ReaderOptions) (anchors : Anchors) (entry : Entry) : SchemaReading :=
  if Text.isBlankText entry.key then .skip entry.key .unnamed
  else
    match decodeSchema anchors entry.node with
    | .error cause => { outcome := .error cause }
    | .ok none => .skip entry.key .notObject
    | .ok (some (.reference target, _)) => .skip entry.key .reference target
    | .ok (some (.schema s, raw)) =>
      if s.properTypes != ["object"] then .skip entry.key .notObject
      else
        let metadata := s.metadata raw
        let properties :=
          match entry.node.lookup? anchors "properties" with
          | some node => node.entries anchors
          | none => []
        let read := readProperties options anchors entry.key metadata properties
        match read.cause with
        | some cause => { skips := read.skips, outcome := .error cause }
        | none =>
          match Model.build entry.key metadata read.kept with
          | .ok model => { skips := read.skips, outcome := .ok (some model) }
          | .error .unnamed => { skips := read.skips, outcome := .error .unnamed }

/-! ### Documents -/

/-- The tree of a JSON value, which must not be nested too deep. -/
def decodeJson (v : Json) : Except Cause Tree :=
  match Node.ofJson? v with
  | some tree => .ok tree
  | none => .error .tooDeep

/-- The tree of a document: JSON if it is valid JSON, YAML otherwise.  Its root is a mapping. -/
def parseTree (raw : ByteArray) : Except Cause Tree := do
  let bytes := raw.toList
  let tree ←
    match Json.parse? (Text.Utf8.decode bytes) with
    | some json => decodeJson json
    | none =>
      match Yaml.parse? bytes with
      | some tree => .ok tree
      | none => .error .foreign
  match tree.root.resolve? tree.anchors with
  | some (.mapping children) => .ok { tree with root := .mapping children }
  | _ => .error .notMapping

/-- The version that a document names. -/
def version (fields : List (String × Json)) : String :=
  fields.foldl (fun old f => if Text.sameFold f.1 "openapi" then textOr old f.2 else old) ""

/-- Whether a document as a whole has the shape of OpenAPI and names its version. -/
def checkTree (tree : Tree) : Except Cause Unit := do
  let value ← (tree.root.value tree.anchors).mapError .ofNode
  match value.toJson? with
  | some (.object fields) =>
    if !conforms false (.object .document) (.object fields) then .error .foreign
    else if (version fields).isEmpty then .error .noVersion
    else .ok ()
  | _ => .error .foreign

/-- Reads entries one after the other, with a checkpoint before each. -/
def readSchemas (options : ReaderOptions) (location : String) (anchors : Anchors) :
    List Entry → Job ReadResult
  | [] => pure {}
  | entry :: rest => do
    Job.checkpoint
    let reading := readSchema options anchors entry
    Job.logAll (reading.skips.map Skip.event)
    match reading.outcome with
    | .error cause =>
      throw <| .document
        { location
          fault := some .malformed
          message := "schema " ++ Text.quoted entry.key
          cause := some cause }
    | .ok model =>
      let more ← readSchemas options location anchors rest
      return { models := model.toList ++ more.models, skipped := reading.skips ++ more.skipped }

/-- Reads the models of a document. -/
def readModels (options : ReaderOptions) (document : Document) : Job ReadResult := do
  let location := document.location
  let malformed (message : String) (cause : Option Cause) : Error :=
    .document { location, fault := some .malformed, message, cause }
  Job.checkpoint
  if document.raw.isEmpty then throw (malformed "document payload is empty" none)
  let tree ←
    match parseTree document.raw with
    | .ok tree => pure tree
    | .error cause => throw (malformed "parse" (some cause))
  match checkTree tree with
  | .ok () => pure ()
  | .error cause => throw (malformed "decode" (some cause))
  let schemas :=
    (tree.root.lookup? tree.anchors "components").bind fun c => c.lookup? tree.anchors "schemas"
  match schemas with
  | some (.mapping children) =>
    readSchemas options location tree.anchors (Node.entries tree.anchors (.mapping children))
  | _ => throw (.document { location, fault := some .missingComponents })

end SchemaPress.OpenApi
