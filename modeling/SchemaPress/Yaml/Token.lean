/-!
# The tokens of a YAML stream
-/

namespace SchemaPress.Yaml

/-- The styles of scalars. -/
inductive Style where
  | plain
  | quoted
  | block
  deriving DecidableEq, Repr, Inhabited

/-- The kinds of tokens.  A tag is a handle, which a directive may expand, and a suffix. -/
inductive TokenKind where
  | streamEnd
  | version (major minor : Nat)
  | tagDirective (handle expansion : String)
  | documentStart
  | documentEnd
  | blockSequenceStart
  | blockMappingStart
  | blockEnd
  | flowSequenceStart
  | flowSequenceEnd
  | flowMappingStart
  | flowMappingEnd
  | blockEntry
  | flowEntry
  | key
  | value
  | alias (name : String)
  | anchor (name : String)
  | tag (handle suffix : String)
  | scalar (text : String) (style : Style)
  deriving DecidableEq, Repr, Inhabited

/-- A token and the line on which it starts, counted from zero. -/
structure Token where
  kind : TokenKind
  line : Nat
  deriving DecidableEq, Repr, Inhabited

end SchemaPress.Yaml
