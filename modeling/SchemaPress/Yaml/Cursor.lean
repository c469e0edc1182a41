/-!
# Positions in a YAML stream

A `Cursor` is a position together with the characters that follow it.  `Cursor.next` goes one
character on, `Cursor.nextLine` over a line break, for which a carriage return and a line feed count
as one.
-/

namespace SchemaPress.Yaml

/-- Whether `c` ends a line. -/
def isBreak (c : Char) : Bool :=
  c == '\n' || c == '\r' || c == '\x85' || c == '\u2028' || c == '\u2029'

/-- Whether `c` is a space or a tab. -/
def isGap (c : Char) : Bool :=
  c == ' ' || c == '\t'

/-- Whether a name of an anchor or a handle may hold `c`. -/
def isWord (c : Char) : Bool :=
  c.isAlphanum || c == '_' || c == '-'

/-- Whether the characters start with a space, a tab or a line break, or have come to their end. -/
def atGap : List Char → Bool
  | [] => true
  | c :: _ => isGap c || isBreak c

/-- Whether the characters start with a line break or have come to their end. -/
def atLineEnd : List Char → Bool
  | [] => true
  | c :: _ => isBreak c

/-- Whether the characters start with one of the two marks that end a document. -/
def atDocumentMark : List Char → Bool
  | '-' :: '-' :: '-' :: rest => atGap rest
  | '.' :: '.' :: '.' :: rest => atGap rest
  | _ => false

/-- The text of a line break in a scalar: the two separators of Unicode stay as they are, any other
becomes a line feed. -/
def breakText (c : Char) : Char :=
  if c == '\u2028' || c == '\u2029' then c else '\n'

/-- A position, counted in characters from the start of the stream and within its line. -/
structure Mark where
  index : Nat := 0
  line : Nat := 0
  column : Nat := 0
  deriving DecidableEq, Repr, Inhabited

namespace Mark

/-- The position `n` characters further on in the line. -/
def ahead (m : Mark) (n : Nat) : Mark :=
  { m with index := m.index + n, column := m.column + n }

/-- The start of the next line, after a break of `n` characters. -/
def nextLine (m : Mark) (n : Nat) : Mark :=
  { index := m.index + n, line := m.line + 1, column := 0 }

end Mark

/-- A position and what follows it. -/
structure Cursor where
  mark : Mark
  rest : List Char
  deriving Repr, Inhabited

namespace Cursor

/-- The position one character further on. -/
def next (c : Cursor) : Cursor :=
  match c.rest with
  | [] => c
  | _ :: rest => ⟨c.mark.ahead 1, rest⟩

/-- The position `n` characters further on. -/
def skip : Nat → Cursor → Cursor
  | 0, c => c
  | n + 1, c => skip n c.next

/-- The position after a line break, if there is one here. -/
def nextLine (c : Cursor) : Cursor :=
  match c.rest with
  | '\r' :: '\n' :: rest => ⟨c.mark.nextLine 2, rest⟩
  | d :: rest => if isBreak d then ⟨c.mark.nextLine 1, rest⟩ else c
  | [] => c

/-- The characters from here on that satisfy `p`, and the position after them. -/
def spanFrom (p : Char → Bool) (taken : List Char) (mark : Mark) :
    List Char → List Char × Cursor
  | [] => (taken.reverse, ⟨mark, []⟩)
  | c :: rest =>
    if p c then spanFrom p (c :: taken) (mark.ahead 1) rest else (taken.reverse, ⟨mark, c :: rest⟩)

/-- The characters from here on that satisfy `p`, none of which is a line break, and the position
after them. -/
def span (p : Char → Bool) (c : Cursor) : List Char × Cursor :=
  spanFrom p [] c.mark c.rest

/-- The position after the characters that satisfy `p`. -/
def skipWhile (p : Char → Bool) (c : Cursor) : Cursor :=
  (c.span p).2

/-- The position at the end of the line. -/
def toLineEnd (c : Cursor) : Cursor :=
  c.skipWhile fun d => !isBreak d

end Cursor

end SchemaPress.Yaml
