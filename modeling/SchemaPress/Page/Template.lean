import SchemaPress.Text.Words

/-!
# Templates

A template is text in which values can be printed, lists be gone through and parts be left out.
`Template.parse?` reads one, and `Template.fill?` fills it in from named values.

* `{{ path }}` prints a value, with its markup characters escaped unless `|safe` follows it;
* `{% for name in path %} … {% endfor %}` repeats its body for the items of a list;
* `{% if path %} … {% else %} … {% endif %}` chooses by whether a value is empty;
* `{# … #}` is a comment.
-/

namespace SchemaPress.Template

/-! ### Values -/

/-- A value that can be printed, gone through or looked into. -/
inductive Datum where
  | nothing
  | text (s : String)
  | list (items : List Datum)
  | record (fields : List (String × Datum))
  deriving Inhabited

namespace Datum

/-- Whether there is something in a value. -/
def isFilled : Datum → Bool
  | .nothing => false
  | .text s => !s.isEmpty
  | .list items => !items.isEmpty
  | .record fields => !fields.isEmpty

/-- The part of a value with a given name.  Only records have parts; nothing has nothing in it. -/
def part? (name : String) : Datum → Option Datum
  | .nothing => some .nothing
  | .record fields => some ((fields.lookup name).getD .nothing)
  | .text _ | .list _ => none

/-- The items of a value. -/
def items : Datum → List Datum
  | .list items => items
  | .text s => s.toList.map fun c => .text (String.singleton c)
  | .record fields => fields.map fun f => .text f.1
  | .nothing => []

/-- The text of a value. -/
def print : Datum → String
  | .text s => s
  | _ => ""

end Datum

/-! ### Templates -/

/-- A value of the page: a name, further names that lead into it, and whether it is printed as it
is. -/
structure Expression where
  name : String
  path : List String := []
  safe : Bool := false
  deriving DecidableEq, Repr, Inhabited

/-- A part of a template. -/
inductive Part where
  | text (s : String)
  | output (value : Expression)
  | each (name : String) (values : Expression) (body : List Part)
  | choice (condition : Expression) (yes no : List Part)
  deriving Inhabited

/-! ### Reading -/

/-- A piece of the text of a template. -/
inductive Chunk where
  | text (s : List Char)
  | output (code : List Char)
  | tag (code : List Char)
  deriving DecidableEq, Repr, Inhabited

/-- The kind of a piece of text. -/
inductive Mode where
  | text
  | output
  | tag
  | comment
  deriving DecidableEq, Repr, Inhabited

/-- The text read so far as a chunk, if there is any. -/
def flush (back : List Char) : List Chunk :=
  if back.isEmpty then [] else [.text back.reverse]

/-- Cuts the text of a template into chunks; `back` is what was read of the current one.  Code and
comments end on the line they start on. -/
def chunks? (mode : Mode) (back : List Char) : List Char → Option (List Chunk)
  | [] => if mode == .text then some (flush back) else none
  | [c] => if mode == .text then some (flush (c :: back)) else none
  | c :: d :: rest =>
    match mode with
    | .text =>
      if c == '{' && d == '{' then (chunks? .output [] rest).map (flush back ++ ·)
      else if c == '{' && d == '%' then (chunks? .tag [] rest).map (flush back ++ ·)
      else if c == '{' && d == '#' then (chunks? .comment [] rest).map (flush back ++ ·)
      else chunks? .text (c :: back) (d :: rest)
    | .output =>
      if c == '}' && d == '}' then (chunks? .text [] rest).map (.output back.reverse :: ·)
      else if c == '\n' then none
      else chunks? .output (c :: back) (d :: rest)
    | .tag =>
      if c == '%' && d == '}' then (chunks? .text [] rest).map (.tag back.reverse :: ·)
      else if c == '\n' then none
      else chunks? .tag (c :: back) (d :: rest)
    | .comment =>
      if c == '#' && d == '}' then chunks? .text [] rest
      else if c == '\n' then none
      else chunks? .comment back (d :: rest)

/-- A word of code. -/
inductive Word where
  | name (s : String)
  | dot
  | bar
  deriving DecidableEq, Repr, Inhabited

/-- Whether `c` may stand in a name. -/
def isNameChar (c : Char) : Bool :=
  c.isAlphanum || c == '_'

/-- Names read so far as a word, if there are any; a name does not start with a digit. -/
def endName (back : List Char) : Option (List Word) :=
  match back.reverse with
  | [] => some []
  | c :: rest => if c.isDigit then none else some [.name (String.ofList (c :: rest))]

/-- Cuts code into words; `back` is what was read of a name. -/
def words? (back : List Char) : List Char → Option (List Word)
  | [] => endName back
  | c :: rest =>
    if isNameChar c then words? (c :: back) rest
    else do
      let before ← endName back
      let after ← words? [] rest
      match c with
      | ' ' | '\t' | '\r' => some (before ++ after)
      | '.' => some (before ++ .dot :: after)
      | '|' => some (before ++ .bar :: after)
      | _ => none

/-- Words that are no names of values. -/
def reserved : List String :=
  ["in", "and", "or", "not", "true", "false", "as", "export"]

/-- The value that words name. -/
def expressionFrom? (value : Expression) : List Word → Option Expression
  | [] => some value
  | .dot :: .name part :: rest =>
    if value.safe then none
    else expressionFrom? { value with path := value.path ++ [part] } rest
  | .bar :: .name "safe" :: rest => expressionFrom? { value with safe := true } rest
  | _ => none

/-- The value that words name. -/
def expression? : List Word → Option Expression
  | .name name :: rest => if name ∈ reserved then none else expressionFrom? { name } rest
  | _ => none

/-- A part that has been opened and waits for its end. -/
inductive Opening where
  | each (name : String) (values : Expression)
  | yes (condition : Expression)
  | no (condition : Expression) (yes : List Part)
  deriving Inhabited

/-- The state of reading: the parts inside the innermost opening in reverse, and around them the
openings, each with the parts before it in reverse. -/
structure Reading where
  back : List Part := []
  outside : List (Opening × List Part) := []
  deriving Inhabited

/-- Reads one more chunk. -/
def Reading.step? (r : Reading) : Chunk → Option Reading
  | .text s => some { r with back := .text (String.ofList s) :: r.back }
  | .output code => do
    let value ← expression? (← words? [] code)
    return { r with back := .output value :: r.back }
  | .tag code => do
    match ← words? [] code, r.outside with
    | .name "for" :: .name name :: .name "in" :: rest, outer =>
      if name ∈ reserved then none
      return { back := [], outside := (.each name (← expression? rest), r.back) :: outer }
    | .name "if" :: rest, outer =>
      return { back := [], outside := (.yes (← expression? rest), r.back) :: outer }
    | [.name "else"], (.yes condition, before) :: outer =>
      return { back := [], outside := (.no condition r.back.reverse, before) :: outer }
    | [.name "endif"], (.yes condition, before) :: outer =>
      return { back := .choice condition r.back.reverse [] :: before, outside := outer }
    | [.name "endif"], (.no condition yes, before) :: outer =>
      return { back := .choice condition yes r.back.reverse :: before, outside := outer }
    | [.name "endfor"], (.each name values, before) :: outer =>
      return { back := .each name values r.back.reverse :: before, outside := outer }
    | _, _ => none

/-- Reads the text of a template. -/
def parse? (s : String) : Option (List Part) := do
  let chunks ← chunks? .text [] s.toList
  let r ← chunks.foldlM Reading.step? {}
  if r.outside.isEmpty then some r.back.reverse else none

/-! ### Filling in -/

/-- A character with markup escaped. -/
def escapedChar (c : Char) : String :=
  match c with
  | '&' => "&amp;"
  | '<' => "&lt;"
  | '>' => "&gt;"
  | '"' => "&quot;"
  | '\'' => "&#39;"
  | c => String.singleton c

/-- A text with markup escaped. -/
def escaped (s : String) : String :=
  String.join (s.toList.map escapedChar)

/-- Named values. -/
abbrev Scope := List (String × Datum)

/-- The value that an expression names; there is none if it looks into a text or a list. -/
def Expression.value? (scope : Scope) (e : Expression) : Option Datum :=
  e.path.foldlM (fun d name => d.part? name) ((scope.lookup e.name).getD .nothing)

mutual

/-- The text of a part, unless it needs a value that cannot be looked into. -/
def Part.fill? (scope : Scope) : Part → Option String
  | .text s => some s
  | .output value => do
    let d ← value.value? scope
    return if value.safe then d.print else escaped d.print
  | .each name values body => do
    let d ← values.value? scope
    let pieces ← d.items.mapM fun item => fill? ((name, item) :: scope) body
    return String.join pieces
  | .choice condition yes no => do
    let d ← condition.value? scope
    if d.isFilled then fill? scope yes else fill? scope no

/-- The text of some parts. -/
def fill? (scope : Scope) : List Part → Option String
  | [] => some ""
  | part :: rest => do return (← part.fill? scope) ++ (← fill? scope rest)

end

end SchemaPress.Template
