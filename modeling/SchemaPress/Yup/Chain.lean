import SchemaPress.Decimal.Notation
import SchemaPress.Yup.Rule

/-!
# Chains of calls

`templateLiteral` writes a text as a template literal without substitutions: a backslash, a backtick
and the start of a substitution are escaped.  `regexLiteral` prepares a pattern to stand between two
slashes: only what would end the literal too early is escaped, which is a slash, a line break, and a
backslash at the very end.  With them `fragment` writes a rule as a method call, and `chain` the
rules of a property as a chain of calls that ends by saying whether a value is required.
-/

namespace SchemaPress.Yup

/-! ### Template literals -/

/-- The characters of a text inside a template literal. -/
def templateChars : List Char → List Char
  | [] => []
  | '\\' :: rest => '\\' :: '\\' :: templateChars rest
  | '`' :: rest => '\\' :: '`' :: templateChars rest
  | '$' :: '{' :: rest => '\\' :: '$' :: '{' :: templateChars rest
  | c :: rest => c :: templateChars rest

/-- A text as a template literal. -/
def templateLiteral (s : String) : String :=
  String.ofList ('`' :: templateChars s.toList ++ ['`'])

/-! ### Regular expression literals -/

/-- The letters that stand for a line break behind a backslash. -/
def lineBreakLetters? (c : Char) : Option (List Char) :=
  if c == '\n' then some ['n']
  else if c == '\r' then some ['r']
  else if c == '\u2028' then some ['u', '2', '0', '2', '8']
  else if c == '\u2029' then some ['u', '2', '0', '2', '9']
  else none

/-- A character of a pattern in a literal; `escaped` tells whether an unpaired backslash precedes
it. -/
def regexChar (escaped : Bool) (c : Char) : List Char :=
  match lineBreakLetters? c with
  | some letters => if escaped then letters else '\\' :: letters
  | none => if c == '/' && !escaped then ['\\', '/'] else [c]

/-- The characters of a pattern in a literal. -/
def regexChars (escaped : Bool) : List Char → List Char
  | [] => if escaped then ['\\'] else []
  | c :: rest => regexChar escaped c ++ regexChars (!escaped && c == '\\') rest

/-- A pattern as the body of a regular expression literal.  The empty pattern becomes a group that
matches nothing but the empty text, because two slashes would start a comment. -/
def regexLiteral (pattern : String) : String :=
  if pattern.isEmpty then "(?:)" else String.ofList (regexChars false pattern.toList)

/-! ### Calls -/

/-- A rule as a method call. -/
def fragment : Rule → String
  | .minimum bound => ".min(" ++ bound.positional ++ ")"
  | .maximum bound => ".max(" ++ bound.positional ++ ")"
  | .minLength length => ".min(" ++ Decimal.intText length ++ ")"
  | .maxLength length => ".max(" ++ Decimal.intText length ++ ")"
  | .pattern pattern => ".matches(/" ++ regexLiteral pattern ++ "/)"
  | .oneOf values => ".oneOf([" ++ ", ".intercalate (values.map templateLiteral) ++ "])"
  | .email => ".email()"
  | .uuid => ".uuid()"

/-- The rules of a property as a chain of calls. -/
def chain (r : PropertyRules) : String :=
  "." ++ r.tag.name ++ "()" ++ String.join (r.rules.map fragment)
    ++ (if r.optional then ".notRequired()" else ".required()")

end SchemaPress.Yup
