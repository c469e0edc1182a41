import SchemaPress.Text.CharClass
import SchemaPress.Yaml.Cursor

/-!
# Quoted scalars

A quoted scalar may run over several lines, which are folded as in a plain scalar.  In single quotes
a quote is written twice; in double quotes there are escapes, and a line break after a backslash is
left out together with the blanks that follow it.
-/

namespace SchemaPress.Yaml.Quoted

/-- The state of reading: the text in reverse, and the gap after its last character.  In a gap that
is `broken`, `first` is the line break that is folded (none if it was escaped) and `more` are the
further ones in reverse. -/
structure State where
  text : List Char := []
  blanks : List Char := []
  broken : Bool := false
  first : List Char := []
  more : List Char := []
  deriving Inhabited

/-- The text with the gap filled in. -/
def State.filled (s : State) : List Char :=
  if s.broken then
    if s.first == ['\n'] then
      if s.more.isEmpty then ' ' :: s.text else s.more ++ s.text
    else s.more ++ s.first ++ s.text
  else s.blanks ++ s.text

/-- The state with the gap closed. -/
def State.close (s : State) : State :=
  { text := s.filled }

/-- The state after a character that is no blank. -/
def State.push (s : State) (c : Char) : State :=
  { text := c :: s.filled }

/-- The state after a blank. -/
def State.blank (s : State) (c : Char) : State :=
  if s.broken then s else { s with blanks := c :: s.blanks }

/-- The state after a line break. -/
def State.break (s : State) (c : Char) : State :=
  if s.broken then { s with more := c :: s.more }
  else { s with blanks := [], broken := true, first := [c] }

/-- The state after a line break behind a backslash. -/
def State.join (s : State) : State :=
  { text := s.filled, broken := true }

/-- The character of an escape of one letter. -/
def escape? (c : Char) : Option Char :=
  match c with
  | '0' => some '\x00'
  | 'a' => some '\x07'
  | 'b' => some '\x08'
  | 't' | '\t' => some '\t'
  | 'n' => some '\n'
  | 'v' => some '\x0b'
  | 'f' => some '\x0c'
  | 'r' => some '\r'
  | 'e' => some '\x1b'
  | ' ' | '"' | '\'' | '\\' => some c
  | 'N' => some '\x85'
  | '_' => some '\xa0'
  | 'L' => some '\u2028'
  | 'P' => some '\u2029'
  | _ => none

/-- The character that hexadecimal digits name; a surrogate is none. -/
def numbered? (digits : List Char) : Option Char :=
  (Text.hexNumber? digits).bind fun n =>
    if (0xD800 ≤ n && n ≤ 0xDFFF) || 0x10FFFF < n then none else some (Char.ofNat n)

/-- Whether a document mark stands here, at the start of a line. -/
def cutOff (mark : Mark) (cs : List Char) : Bool :=
  mark.column == 0 && atDocumentMark cs

/-- Reads on within single quotes; `none` if the scalar does not end. -/
def readSingle (s : State) (mark : Mark) (cs : List Char) : Option (State × Cursor) :=
  if cutOff mark cs then none
  else
    match cs with
    | [] => none
    | '\'' :: '\'' :: rest => readSingle (s.push '\'') (mark.ahead 2) rest
    | '\'' :: rest => some (s.close, ⟨mark.ahead 1, rest⟩)
    | '\r' :: '\n' :: rest => readSingle (s.break '\n') (mark.nextLine 2) rest
    | c :: rest =>
      if isGap c then readSingle (s.blank c) (mark.ahead 1) rest
      else if isBreak c then readSingle (s.break (breakText c)) (mark.nextLine 1) rest
      else readSingle (s.push c) (mark.ahead 1) rest

/-- Reads on within double quotes; `none` if the scalar does not end or an escape is unknown. -/
def readDouble (s : State) (mark : Mark) (cs : List Char) : Option (State × Cursor) :=
  if cutOff mark cs then none
  else
    match cs with
    | [] => none
    | '"' :: rest => some (s.close, ⟨mark.ahead 1, rest⟩)
    | '\\' :: '\r' :: '\n' :: rest => readDouble s.join (mark.nextLine 3) rest
    | '\\' :: 'x' :: a :: b :: rest =>
      match numbered? [a, b] with
      | some c => readDouble (s.push c) (mark.ahead 4) rest
      | none => none
    | '\\' :: 'u' :: a :: b :: c :: d :: rest =>
      match numbered? [a, b, c, d] with
      | some c => readDouble (s.push c) (mark.ahead 6) rest
      | none => none
    | '\\' :: 'U' :: a :: b :: c :: d :: e :: f :: g :: h :: rest =>
      match numbered? [a, b, c, d, e, f, g, h] with
      | some c => readDouble (s.push c) (mark.ahead 10) rest
      | none => none
    | '\\' :: c :: rest =>
      if isBreak c then readDouble s.join (mark.nextLine 2) rest
      else
        match escape? c with
        | some c => readDouble (s.push c) (mark.ahead 2) rest
        | none => none
    | '\r' :: '\n' :: rest => readDouble (s.break '\n') (mark.nextLine 2) rest
    | c :: rest =>
      if c == '\\' then none
      else if isGap c then readDouble (s.blank c) (mark.ahead 1) rest
      else if isBreak c then readDouble (s.break (breakText c)) (mark.nextLine 1) rest
      else readDouble (s.push c) (mark.ahead 1) rest

/-- The quoted scalar whose opening quote is here, and the position after it. -/
def read? (c : Cursor) : Option (String × Cursor) :=
  let inside := c.next
  let result :=
    if c.rest.head? == some '\'' then readSingle {} inside.mark inside.rest
    else readDouble {} inside.mark inside.rest
  result.map fun (s, c) => (String.ofList s.text.reverse, c)

end SchemaPress.Yaml.Quoted
