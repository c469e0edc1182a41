import SchemaPress.Json.Basic
import SchemaPress.Text.CharClass

/-!
# Writing JSON

`Json.compact` writes a value without blanks, `Json.indented` with a line for each item and field.
The two separators of Unicode are always escaped; the characters that mean something in HTML only on
request (`html`).
-/

namespace SchemaPress.Json

/-- A character inside a JSON text. -/
def escaped (html : Bool) (c : Char) : String :=
  if c == '"' then "\\\""
  else if c == '\\' then "\\\\"
  else if c == '\n' then "\\n"
  else if c == '\r' then "\\r"
  else if c == '\t' then "\\t"
  else if c == '\x08' then "\\b"
  else if c == '\x0c' then "\\f"
  else if c.toNat < 0x20 || c == '\u2028' || c == '\u2029'
      || (html && (c == '<' || c == '>' || c == '&')) then
    String.ofList ('\\' :: 'u' :: Text.hex 4 c.toNat)
  else c.toString

/-- A text in JSON. -/
def quote (html : Bool) (s : String) : String :=
  s.toList.foldl (fun out c => out ++ escaped html c) "\"" ++ "\""

mutual

/-- Writes a value behind `out`. -/
def compactTo (html : Bool) (out : String) : Json → String
  | .null => out ++ "null"
  | .bool b => out ++ (if b then "true" else "false")
  | .number literal => out ++ literal
  | .string s => out ++ quote html s
  | .array items => itemsTo html true (out ++ "[") items ++ "]"
  | .object fields => fieldsTo html true (out ++ r"{") fields ++ r"}"

/-- Writes items behind `out`. -/
def itemsTo (html first : Bool) (out : String) : List Json → String
  | [] => out
  | v :: rest => itemsTo html false (compactTo html (if first then out else out ++ ",") v) rest

/-- Writes fields behind `out`. -/
def fieldsTo (html first : Bool) (out : String) : List (String × Json) → String
  | [] => out
  | (name, v) :: rest =>
    let out := (if first then out else out ++ ",") ++ quote html name ++ ":"
    fieldsTo html false (compactTo html out v) rest

end

/-- A value without blanks. -/
def compact (html : Bool) (v : Json) : String :=
  compactTo html "" v

/-- The start of a line at a depth. -/
def newLine (depth : Nat) : String :=
  "\n" ++ String.ofList (List.replicate (2 * depth) ' ')

mutual

/-- Writes a value at a depth, behind `out`. -/
def indentedTo (depth : Nat) (out : String) : Json → String
  | .array [] => out ++ "[]"
  | .object [] => out ++ "{}"
  | .array items =>
    itemLinesTo depth true (out ++ "[") items ++ newLine depth ++ "]"
  | .object fields =>
    fieldLinesTo depth true (out ++ r"{") fields ++ newLine depth ++ r"}"
  | .null => out ++ "null"
  | .bool b => out ++ (if b then "true" else "false")
  | .number literal => out ++ literal
  | .string s => out ++ quote true s

/-- Writes items in lines of their own, one step further in. -/
def itemLinesTo (depth : Nat) (first : Bool) (out : String) : List Json → String
  | [] => out
  | v :: rest =>
    let out := (if first then out else out ++ ",") ++ newLine (depth + 1)
    itemLinesTo depth false (indentedTo (depth + 1) out v) rest

/-- Writes fields in lines of their own, one step further in. -/
def fieldLinesTo (depth : Nat) (first : Bool) (out : String) : List (String × Json) → String
  | [] => out
  | (name, v) :: rest =>
    let out := (if first then out else out ++ ",") ++ newLine (depth + 1) ++ quote true name ++ ": "
    fieldLinesTo depth false (indentedTo (depth + 1) out v) rest

end

/-- A value with a line for each item and field, indented by two blanks. -/
def indented (v : Json) : String :=
  indentedTo 0 "" v

end SchemaPress.Json
