import SchemaPress.Text.CharClass
import SchemaPress.Text.Utf8
import SchemaPress.Yaml.Cursor
import SchemaPress.Yaml.Token

/-!
# Anchors, tags and directives
-/

namespace SchemaPress.Yaml.Name

/-- The name of the anchor or alias whose indicator is here. -/
def anchor? (c : Cursor) : Option (String × Cursor) :=
  let (name, c) := c.next.span isWord
  let ended :=
    match c.rest with
    | [] => true
    | d :: _ => isGap d || isBreak d || d ∈ ['?', ':', ',', ']', '}', '%', '@', '`']
  if name.isEmpty || !ended then none else some (String.ofList name, c)

/-- Whether a tag may hold `c` unescaped. -/
def isTagChar (c : Char) : Bool :=
  isWord c || c ∈ [';', '/', '?', ':', '@', '&', '=', '+', '$', ',', '.', '!', '~', '*', '\'', '(',
    ')', '[', ']']

/-- The number of bytes of a character whose first byte is `b`. -/
def width? (b : Nat) : Option Nat :=
  if b < 0x80 then some 1
  else if b / 32 == 6 then some 2
  else if b / 16 == 14 then some 3
  else if b / 8 == 30 then some 4
  else none

/-- Reads the characters of a tag into bytes, in reverse.  `due` bytes of a character that is
written by its bytes are still to come.  `none` is a malformed escape. -/
def tagFrom (taken : List UInt8) (due : Nat) (mark : Mark) :
    List Char → Option (List UInt8 × Cursor)
  | '%' :: a :: b :: rest =>
    match Text.hexNumber? [a, b] with
    | some n =>
      match due with
      | 0 =>
        match width? n with
        | some w => tagFrom (UInt8.ofNat n :: taken) (w - 1) (mark.ahead 3) rest
        | none => none
      | due + 1 =>
        if n / 64 == 2 then tagFrom (UInt8.ofNat n :: taken) due (mark.ahead 3) rest else none
    | none => none
  | c :: rest =>
    if c == '%' || due != 0 then none
    else if isTagChar c then
      tagFrom (c.toString.toUTF8.toList.reverse ++ taken) 0 (mark.ahead 1) rest
    else some (taken, ⟨mark, c :: rest⟩)
  | [] => if due == 0 then some (taken, ⟨mark, []⟩) else none

/-- The rest of a tag behind `start`, which is part of it. -/
def tagText? (start : List Char) (c : Cursor) : Option (String × Cursor) :=
  (tagFrom (String.ofList start).toUTF8.toList.reverse 0 c.mark c.rest).map fun (bytes, c) =>
    (String.ofList (Text.Utf8.decode bytes.reverse), c)

/-- A handle: an exclamation mark, a name and, if it follows, a second mark. -/
def handle (c : Cursor) : List Char × Cursor :=
  let (name, c) := c.next.span isWord
  if c.rest.head? == some '!' then ('!' :: name ++ ['!'], c.next) else ('!' :: name, c)

/-- The tag that starts here, as a handle and a suffix. -/
def tag? (c : Cursor) : Option (TokenKind × Cursor) := do
  let (kind, c) ←
    match c.rest with
    | '!' :: '<' :: _ => do
      let (suffix, c) ← tagText? [] (c.skip 2)
      if suffix.isEmpty || c.rest.head? != some '>' then none
      pure (TokenKind.tag "" suffix, c.next)
    | _ => do
      let (start, c) := handle c
      if 1 < start.length && start.getLast? == some '!' then
        let (suffix, c) ← tagText? [] c
        if suffix.isEmpty then none
        pure (TokenKind.tag (String.ofList start) suffix, c)
      else
        let (suffix, c) ← tagText? (start.drop 1) c
        pure (if suffix.isEmpty then TokenKind.tag "" "!" else TokenKind.tag "!" suffix, c)
  if atGap c.rest then some (kind, c) else none

/-- A number of at most two digits. -/
def versionNumber? (c : Cursor) : Option (Nat × Cursor) :=
  let (digits, c) := c.span Char.isDigit
  if digits.isEmpty || 2 < digits.length then none
  else some (digits.foldl (fun n d => n * 10 + (d.toNat - 48)) 0, c)

/-- The version that a directive names. -/
def version? (c : Cursor) : Option (TokenKind × Cursor) := do
  let (major, c) ← versionNumber? (c.skipWhile isGap)
  if c.rest.head? != some '.' then none
  let (minor, c) ← versionNumber? c.next
  some (.version major minor, c)

/-- The handle and its expansion that a directive names. -/
def tagDirective? (c : Cursor) : Option (TokenKind × Cursor) := do
  let c := c.skipWhile isGap
  if c.rest.head? != some '!' then none
  let (start, c) := handle c
  if start != ['!'] && start.getLast? != some '!' then none
  if !(c.rest.head?.any isGap) then none
  let (expansion, c) ← tagText? [] (c.skipWhile isGap)
  if expansion.isEmpty || !atGap c.rest then none
  some (.tagDirective (String.ofList start) expansion, c)

/-- The directive that starts here, to the end of its line. -/
def directive? (c : Cursor) : Option (TokenKind × Cursor) := do
  let (name, c) := c.next.span isWord
  if name.isEmpty || !atGap c.rest then none
  let (kind, c) ←
    if name == ['Y', 'A', 'M', 'L'] then version? c
    else if name == ['T', 'A', 'G'] then tagDirective? c
    else none
  let c := c.skipWhile isGap
  let c := if c.rest.head? == some '#' then c.toLineEnd else c
  if atLineEnd c.rest then some (kind, c.nextLine) else none

end SchemaPress.Yaml.Name
