/-!
# The shape of an OpenAPI document

Each kind of object in an OpenAPI document has fields with fixed names, and each field has a shape.
Fields that are not listed may hold anything.
-/

namespace SchemaPress.OpenApi

/-- The kinds of objects in a document. -/
inductive Kind where
  | document
  | info
  | contact
  | license
  | server
  | serverVariable
  | tag
  | externalDocs
  | components
  | schema
  | xml
  | discriminator
  | pathItem
  | operation
  | parameter
  | requestBody
  | response
  | mediaType
  | encoding
  | sample
  | link
  | securityScheme
  | oauthFlows
  | oauthFlow
  | origin
  | location
  deriving DecidableEq, Repr, Inhabited

/-- The shapes of fields.  `null` fits every shape. -/
inductive Shape where
  /-- a text -/
  | text
  /-- a boolean -/
  | flag
  /-- a number -/
  | number
  /-- an unsigned integer of 64 bits -/
  | count
  /-- a signed integer of 64 bits -/
  | position
  /-- anything -/
  | any
  /-- a text or a list of texts -/
  | types
  /-- a boolean or a schema -/
  | extra
  /-- a list -/
  | list (item : Shape)
  /-- an object of a kind -/
  | object (kind : Kind)
  /-- an object of a kind, or a reference to one -/
  | linked (kind : Kind)
  /-- a map by name, which may carry its own place in the source -/
  | named (item : Shape)
  /-- a plain map by name -/
  | table (item : Shape)
  /-- a map by pattern, in which names that start with `x-` are free -/
  | patterned (item : Shape)
  /-- a map by pattern, or a reference to one -/
  | linkedPattern (item : Shape)
  deriving DecidableEq, Repr, Inhabited

open Shape in
/-- The fields of each kind of object. -/
def Kind.fields : Kind → List (String × Shape)
  | .document =>
    [("openapi", text), ("components", object .components), ("info", object .info),
      ("paths", patterned (object .pathItem)), ("security", list (named (list text))),
      ("servers", list (object .server)), ("tags", list (object .tag)),
      ("externalDocs", object .externalDocs)]
  | .info =>
    [("__origin__", object .origin), ("title", text), ("description", text),
      ("termsOfService", text), ("contact", object .contact), ("license", object .license),
      ("version", text)]
  | .contact => [("__origin__", object .origin), ("name", text), ("url", text), ("email", text)]
  | .license => [("__origin__", object .origin), ("name", text), ("url", text)]
  | .server =>
    [("__origin__", object .origin), ("url", text), ("description", text),
      ("variables", table (object .serverVariable))]
  | .serverVariable =>
    [("__origin__", object .origin), ("enum", list text), ("default", text), ("description", text)]
  | .tag =>
    [("__origin__", object .origin), ("name", text), ("description", text),
      ("externalDocs", object .externalDocs)]
  | .externalDocs => [("__origin__", object .origin), ("description", text), ("url", text)]
  | .components =>
    [("__origin__", object .origin), ("schemas", named (linked .schema)),
      ("parameters", named (linked .parameter)), ("headers", named (linked .parameter)),
      ("requestBodies", named (linked .requestBody)), ("responses", named (linked .response)),
      ("securitySchemes", named (linked .securityScheme)), ("examples", named (linked .sample)),
      ("links", named (linked .link)), ("callbacks", named (linkedPattern (object .pathItem)))]
  | .schema =>
    [("__origin__", object .origin), ("oneOf", list (linked .schema)),
      ("anyOf", list (linked .schema)), ("allOf", list (linked .schema)), ("not", linked .schema),
      ("type", types), ("title", text), ("format", text), ("description", text),
      ("enum", list any), ("default", any), ("example", any),
      ("externalDocs", object .externalDocs), ("uniqueItems", flag), ("exclusiveMinimum", flag),
      ("exclusiveMaximum", flag), ("nullable", flag), ("readOnly", flag), ("writeOnly", flag),
      ("allowEmptyValue", flag), ("deprecated", flag), ("xml", object .xml), ("minimum", number),
      ("maximum", number), ("multipleOf", number), ("minLength", count), ("maxLength", count),
      ("pattern", text), ("minItems", count), ("maxItems", count), ("items", linked .schema),
      ("required", list text), ("properties", named (linked .schema)), ("minProperties", count),
      ("maxProperties", count), ("additionalProperties", extra),
      ("discriminator", object .discriminator)]
  | .xml =>
    [("__origin__", object .origin), ("name", text), ("namespace", text), ("prefix", text),
      ("attribute", flag), ("wrapped", flag)]
  | .discriminator =>
    [("__origin__", object .origin), ("propertyName", text), ("mapping", named text)]
  | .pathItem =>
    [("__origin__", object .origin), ("$ref", text), ("summary", text), ("description", text),
      ("connect", object .operation), ("delete", object .operation), ("get", object .operation),
      ("head", object .operation), ("options", object .operation), ("patch", object .operation),
      ("post", object .operation), ("put", object .operation), ("trace", object .operation),
      ("servers", list (object .server)), ("parameters", list (linked .parameter))]
  | .operation =>
    [("__origin__", object .origin), ("tags", list text), ("summary", text), ("description", text),
      ("operationId", text), ("parameters", list (linked .parameter)),
      ("requestBody", linked .requestBody), ("responses", patterned (linked .response)),
      ("callbacks", named (linkedPattern (object .pathItem))), ("deprecated", flag),
      ("security", list (named (list text))), ("servers", list (object .server)),
      ("externalDocs", object .externalDocs)]
  | .parameter =>
    [("__origin__", object .origin), ("name", text), ("in", text), ("description", text),
      ("style", text), ("explode", flag), ("allowEmptyValue", flag), ("allowReserved", flag),
      ("deprecated", flag), ("required", flag), ("schema", linked .schema), ("example", any),
      ("examples", named (linked .sample)), ("content", named (object .mediaType))]
  | .requestBody =>
    [("__origin__", object .origin), ("description", text), ("required", flag),
      ("content", named (object .mediaType))]
  | .response =>
    [("__origin__", object .origin), ("description", text), ("headers", named (linked .parameter)),
      ("content", named (object .mediaType)), ("links", named (linked .link))]
  | .mediaType =>
    [("__origin__", object .origin), ("schema", linked .schema), ("example", any),
      ("examples", named (linked .sample)), ("encoding", table (object .encoding))]
  | .encoding =>
    [("__origin__", object .origin), ("contentType", text), ("headers", named (linked .parameter)),
      ("style", text), ("explode", flag), ("allowReserved", flag)]
  | .sample =>
    [("__origin__", object .origin), ("summary", text), ("description", text), ("value", any),
      ("externalValue", text)]
  | .link =>
    [("__origin__", object .origin), ("operationRef", text), ("operationId", text),
      ("description", text), ("parameters", table any), ("server", object .server),
      ("requestBody", any)]
  | .securityScheme =>
    [("__origin__", object .origin), ("type", text), ("description", text), ("name", text),
      ("in", text), ("scheme", text), ("bearerFormat", text), ("flows", object .oauthFlows),
      ("openIdConnectUrl", text)]
  | .oauthFlows =>
    [("__origin__", object .origin), ("implicit", object .oauthFlow),
      ("password", object .oauthFlow), ("clientCredentials", object .oauthFlow),
      ("authorizationCode", object .oauthFlow)]
  | .oauthFlow =>
    [("__origin__", object .origin), ("authorizationUrl", text), ("tokenUrl", text),
      ("refreshUrl", text), ("scopes", named text)]
  | .origin => [("key", object .location), ("fields", table (object .location))]
  | .location => [("line", position), ("column", position)]

end SchemaPress.OpenApi
