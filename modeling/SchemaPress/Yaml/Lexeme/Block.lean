import SchemaPress.Yaml.Cursor

/-!
# Block scalars

A block scalar is a run of indented lines.  Its header says whether line breaks are kept (`|`) or
folded (`>`), how many to keep at the end (`Chomping`), and possibly how far the lines are indented;
otherwise the first line that is not empty shows it.
-/

namespace SchemaPress.Yaml.Block

/-- Which line breaks at the end of the scalar are kept: the first one, all of them or none. -/
inductive Chomping where
  | clip
  | keep
  | strip
  deriving DecidableEq, Repr, Inhabited

/-- The header of a block scalar; `indent` is relative to the surrounding block. -/
structure Header where
  chomping : Chomping := .clip
  indent : Option Nat := none
  deriving Inhabited

/-- The chomping indicator, if there is one. -/
def chomping : List Char → Option (Chomping × List Char)
  | '+' :: rest => some (.keep, rest)
  | '-' :: rest => some (.strip, rest)
  | _ => none

/-- The indentation indicator, if there is one. -/
def indentation : List Char → Option (Nat × List Char)
  | c :: rest => if c.isDigit then some (c.toNat - 48, rest) else none
  | [] => none

/-- The indicators in either order, and how many characters they take; the indentation is not zero.
-/
def header? (cs : List Char) : Option (Header × Nat) :=
  let (h, n) :=
    match chomping cs with
    | some (chomp, rest) =>
      match indentation rest with
      | some (i, _) => (Header.mk chomp (some i), 2)
      | none => (Header.mk chomp none, 1)
    | none =>
      match indentation cs with
      | some (i, rest) =>
        match chomping rest with
        | some (chomp, _) => (Header.mk chomp (some i), 2)
        | none => (Header.mk .clip (some i), 1)
      | none => (Header.mk .clip none, 0)
  if h.indent == some 0 then none else some (h, n)

/-- The state of reading: the text in reverse, the break of the last line, the breaks of the empty
lines after it in reverse, and whether the last line started with a blank. -/
structure State where
  text : List Char := []
  last : List Char := []
  empty : List Char := []
  blank : Bool := false
  deriving Inhabited

/-- The state at the start of a line whose first character is `c`. -/
def State.line (folded : Bool) (s : State) (c : Char) : State :=
  let text :=
    if folded && !s.blank && !isGap c && s.last == ['\n'] then
      if s.empty.isEmpty then ' ' :: s.text else s.text
    else s.last ++ s.text
  { text := s.empty ++ text, blank := isGap c }

/-- The whole text, with the breaks at its end that are kept. -/
def State.finish (chomping : Chomping) (s : State) : List Char :=
  match chomping with
  | .strip => s.text
  | .clip => s.last ++ s.text
  | .keep => s.empty ++ s.last ++ s.text

mutual

/-- Reads the indentation of a line and the empty lines before it.  `indent` is the column at which
lines start, once it is known; `deepest` is the furthest column reached so far and `least` the least
indentation a line may have.  `none` is a tab in the indentation. -/
def readIndent (folded : Bool) (least : Nat) (indent : Option Nat) (deepest : Nat) (s : State)
    (mark : Mark) : List Char → Option (State × Cursor)
  | [] => some (s, ⟨mark, []⟩)
  | '\r' :: '\n' :: rest =>
    readIndent folded least indent (max deepest mark.column) { s with empty := '\n' :: s.empty }
      (mark.nextLine 2) rest
  | c :: rest =>
    let inside := match indent with | none => true | some i => mark.column < i
    if c == ' ' && inside then readIndent folded least indent deepest s (mark.ahead 1) rest
    else if c == '\t' && inside then none
    else
      let deepest := max deepest mark.column
      if isBreak c then
        readIndent folded least indent deepest { s with empty := breakText c :: s.empty }
          (mark.nextLine 1) rest
      else
        let indent := indent.getD (max deepest least)
        if mark.column == indent then
          let s := s.line folded c
          readLine folded least indent { s with text := c :: s.text } (mark.ahead 1) rest
        else some (s, ⟨mark, c :: rest⟩)

/-- Reads the rest of a line. -/
def readLine (folded : Bool) (least indent : Nat) (s : State) (mark : Mark) :
    List Char → Option (State × Cursor)
  | [] => some (s, ⟨mark, []⟩)
  | '\r' :: '\n' :: rest =>
    readIndent folded least (some indent) 0 { s with last := ['\n'] } (mark.nextLine 2) rest
  | c :: rest =>
    if isBreak c then
      let s := { s with last := [breakText c] }
      readIndent folded least (some indent) 0 s (mark.nextLine 1) rest
    else readLine folded least indent { s with text := c :: s.text } (mark.ahead 1) rest

end

/-- The block scalar whose indicator is here, inside a block indented by `parent` (`none` at the
top), and the position after it. -/
def read? (parent : Option Nat) (c : Cursor) : Option (String × Cursor) := do
  let folded := c.rest.head? == some '>'
  let c := c.next
  let (header, n) ← header? c.rest
  let c := (c.skip n).skipWhile isGap
  let c := if c.rest.head? == some '#' then c.toLineEnd else c
  if !atLineEnd c.rest then none
  let c := c.nextLine
  let indent := header.indent.map fun i => (parent.getD 0) + i
  let least := match parent with | none => 1 | some p => p + 1
  let (s, c) ← readIndent folded least indent 0 {} c.mark c.rest
  some (String.ofList (s.finish header.chomping).reverse, c)

end SchemaPress.Yaml.Block
