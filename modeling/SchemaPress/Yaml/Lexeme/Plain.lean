import SchemaPress.Yaml.Cursor

/-!
# Plain scalars

A plain scalar runs over several lines as long as they are indented.  Blanks inside a line are kept,
a single line break becomes a space, and of several breaks the first is dropped.
-/

namespace SchemaPress.Yaml.Plain

/-- The state of reading: the text in reverse, and the gap after its last character.  A gap is some
blanks, or, once `broken`, a first line break and further ones, in reverse. -/
structure State where
  text : List Char := []
  blanks : List Char := []
  broken : Bool := false
  first : List Char := []
  more : List Char := []
  deriving Inhabited

/-- The text with the gap filled in. -/
def State.filled (s : State) : List Char :=
  if s.broken then
    if s.first == ['\n'] then
      if s.more.isEmpty then ' ' :: s.text else s.more ++ s.text
    else s.more ++ s.first ++ s.text
  else s.blanks ++ s.text

/-- The state after a character that is no blank. -/
def State.push (s : State) (c : Char) : State :=
  { text := c :: s.filled }

/-- The state after a blank within a line. -/
def State.blank (s : State) (c : Char) : State :=
  if s.broken then s else { s with blanks := c :: s.blanks }

/-- The state after a line break. -/
def State.break (s : State) (c : Char) : State :=
  if s.broken then { s with more := c :: s.more }
  else { s with blanks := [], broken := true, first := [c] }

/-- Whether a plain scalar ends before these characters. -/
def ends (flow : Bool) : List Char → Bool
  | [] => true
  | c :: rest =>
    (c == ':' && atGap rest)
      || (flow && (c == ',' || c == '?' || c == '[' || c == ']' || c == '{' || c == '}'))

/-- Reads on; `gap` tells whether a word may begin here.  `none` is a tab in the indentation.  Lines
after the first have to start at column `indent` unless in a flow collection. -/
def readFrom (flow : Bool) (indent : Nat) (gap : Bool) (s : State) (mark : Mark) :
    List Char → Option (State × Cursor)
  | [] => some (s, ⟨mark, []⟩)
  | '\r' :: '\n' :: rest => readFrom flow indent true (s.break '\n') (mark.nextLine 2) rest
  | c :: rest =>
    if isGap c then
      if s.broken && mark.column < indent && c == '\t' then none
      else readFrom flow indent true (s.blank c) (mark.ahead 1) rest
    else if isBreak c then
      readFrom flow indent true (s.break (breakText c)) (mark.nextLine 1) rest
    else if gap && ((!flow && s.broken && mark.column < indent)
        || (mark.column == 0 && atDocumentMark (c :: rest)) || c == '#') then
      some (s, ⟨mark, c :: rest⟩)
    else if ends flow (c :: rest) then some (s, ⟨mark, c :: rest⟩)
    else readFrom flow indent false (s.push c) (mark.ahead 1) rest

/-- The plain scalar that starts here, whether a line break follows it, and the position after it.
-/
def read? (flow : Bool) (indent : Nat) (c : Cursor) : Option (String × Bool × Cursor) :=
  (readFrom flow indent true {} c.mark c.rest).map fun (s, c) =>
    (String.ofList s.text.reverse, s.broken, c)

end SchemaPress.Yaml.Plain
