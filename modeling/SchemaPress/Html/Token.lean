import SchemaPress.Html.CharacterReference
import SchemaPress.Text.Casing

/-!
# The tokens of an HTML text

`Html.tokens` cuts a text into tags and the text between them.  Some elements hold nothing but text:
it goes on to the closing tag, whatever it contains.  Comments and declarations are left out, and so
is a tag that is not closed before the text ends.
-/

namespace SchemaPress.Html

/-- A part of an HTML text.  The characters of a text are those it stands for. -/
inductive Token where
  | text (cs : List Char)
  | startTag (name : String)
  | endTag (name : String)
  | emptyTag (name : String)
  deriving Repr, Inhabited

/-- Whether `c` is a blank inside a tag. -/
def isTagBlank (c : Char) : Bool :=
  c == ' ' || c == '\n' || c == '\r' || c == '\t' || c == '\x0c'

/-! ### Tags -/

/-- The part of a tag that a character is in. -/
inductive TagPart where
  | name
  | gap
  | key
  | afterKey
  | beforeValue
  | quoted (quote : Char)
  | bare
  deriving DecidableEq, Repr, Inhabited

/-- The part of the next character; `none` at the end of the tag. -/
def TagPart.next : TagPart → Char → Option TagPart
  | .name, c =>
    if isTagBlank c || c == '/' then some .gap else if c == '>' then none else some .name
  | .gap, c =>
    if isTagBlank c || c == '/' then some .gap else if c == '>' then none else some .key
  | .key, c =>
    if isTagBlank c then some .afterKey
    else if c == '/' then some .gap
    else if c == '=' then some .beforeValue
    else if c == '>' then none
    else some .key
  | .afterKey, c =>
    if isTagBlank c then some .afterKey
    else if c == '/' then some .gap
    else if c == '=' then some .beforeValue
    else if c == '>' then none
    else some .key
  | .beforeValue, c =>
    if isTagBlank c then some .beforeValue
    else if c == '>' then none
    else if c == '"' || c == '\'' then some (.quoted c)
    else some .bare
  | .quoted quote, c => if c == quote then some .gap else some (.quoted quote)
  | .bare, c => if isTagBlank c then some .gap else if c == '>' then none else some .bare

/-- A tag as far as it matters: its name in lower case, and whether a slash stands before its end.
-/
structure Tag where
  name : String
  slash : Bool
  deriving Repr, Inhabited

/-- Reads a tag from its name on; `none` if it does not end.  `name` is in reverse and `last` is the
character read last. -/
def readTag (name : List Char) (last : Char) (part : TagPart) : List Char → Option (Tag × List Char)
  | [] => none
  | c :: rest =>
    match part.next c with
    | none => some (⟨String.ofList (name.reverse.map Char.toLower), last == '/'⟩, rest)
    | some next =>
      readTag (if part == .name && next == .name then c :: name else name) c next rest

/-! ### Comments -/

/-- The text after the next closing angle. -/
def afterAngle (cs : List Char) : List Char :=
  (cs.dropWhile (· != '>')).drop 1

/-- The text after a comment of which `dashes` dashes have just been read; `start` tells that
nothing else has been. -/
def afterComment (dashes : Nat) (start : Bool) : List Char → List Char
  | [] => []
  | '-' :: rest => afterComment (dashes + 1) start rest
  | '!' :: '>' :: rest => if 2 ≤ dashes then rest else afterComment 0 false rest
  | '!' :: '-' :: rest => afterComment 1 false rest
  | '!' :: c :: rest =>
    if 2 ≤ dashes then afterComment 0 false rest else afterComment 0 false (c :: rest)
  | '>' :: rest => if 2 ≤ dashes || start then rest else afterComment 0 false rest
  | _ :: rest => afterComment 0 false rest

/-- The text after a declaration or a comment, from its exclamation mark on. -/
def afterDeclaration : List Char → List Char
  | '-' :: '-' :: rest => afterComment 0 true rest
  | [] => []
  | [_] => []
  | rest => afterAngle rest

/-! ### Elements that hold nothing but text -/

/-- The elements whose content is text without references. -/
def rawElements : List String :=
  ["iframe", "noembed", "noframes", "noscript", "plaintext", "script", "style", "xmp"]

/-- The elements whose content is text with references. -/
def textElements : List String := ["textarea", "title"]

/-- Whether the closing tag of an element stands behind `</`. -/
def closes (element : List Char) (cs : List Char) : Bool :=
  (cs.take element.length).map Char.toLower == element
    && (cs.drop element.length).head?.any fun c => isTagBlank c || c == '/' || c == '>'

/-- The content of an element up to its closing tag, in reverse behind `taken`, and the rest. -/
def contentFrom (element taken : List Char) : List Char → List Char × List Char
  | [] => (taken, [])
  | '<' :: '/' :: rest =>
    if closes element rest then (taken, '<' :: '/' :: rest)
    else contentFrom element ('/' :: '<' :: taken) rest
  | c :: rest => contentFrom element (c :: taken) rest

/-- The state of a script: outside of comments, in a comment, or in a script within one. -/
inductive Hiding where
  | none
  | comment
  | script
  deriving DecidableEq, Repr, Inhabited

/-- The name of the element that holds a script. -/
def scriptName : List Char := ['s', 'c', 'r', 'i', 'p', 't']

/-- The content of a script up to its closing tag, in reverse behind `taken`, and the rest.
`dashes` counts the dashes just read. -/
def scriptFrom (mode : Hiding) (dashes : Nat) (taken : List Char) :
    (fuel : Nat) → List Char → List Char × List Char
  | 0, cs => (cs.reverse ++ taken, [])
  | _ + 1, [] => (taken, [])
  | fuel + 1, c :: rest =>
    match mode with
    | .none =>
      if c == '<' && rest.head? == some '/' && closes scriptName (rest.drop 1) then
        (taken, c :: rest)
      else if c == '<' && ['!', '-', '-'].isPrefixOf rest then
        scriptFrom .comment 2 ('-' :: '-' :: '!' :: '<' :: taken) fuel (rest.drop 3)
      else scriptFrom .none 0 (c :: taken) fuel rest
    | .comment =>
      if c == '-' then scriptFrom .comment (dashes + 1) (c :: taken) fuel rest
      else if c == '>' && 2 ≤ dashes then scriptFrom .none 0 (c :: taken) fuel rest
      else if c == '<' then
        match rest with
        | '/' :: more =>
          if closes scriptName more then (taken, c :: rest)
          else scriptFrom .comment 0 ('/' :: c :: taken) fuel more
        | d :: _ =>
          if d.isAlpha then
            if closes scriptName rest then
              scriptFrom .script 0 ((rest.take 7).reverse ++ c :: taken) fuel (rest.drop 7)
            else scriptFrom .comment 0 (c :: taken) fuel rest
          else scriptFrom .none 0 (c :: taken) fuel rest
        | [] => (c :: taken, [])
      else scriptFrom .comment 0 (c :: taken) fuel rest
    | .script =>
      if c == '-' then scriptFrom .script (dashes + 1) (c :: taken) fuel rest
      else if c == '>' && 2 ≤ dashes then scriptFrom .none 0 (c :: taken) fuel rest
      else if c == '<' && rest.head? == some '/' && closes scriptName (rest.drop 1) then
        scriptFrom .comment 0 ((rest.take 8).reverse ++ c :: taken) fuel (rest.drop 8)
      else scriptFrom .script 0 (c :: taken) fuel rest

/-- The content of an element that holds nothing but text, and the rest. -/
def content (element : String) (cs : List Char) : List Char × List Char :=
  if element == "plaintext" then (cs, [])
  else
    let (taken, rest) :=
      if element == "script" then scriptFrom .none 0 [] cs.length cs
      else contentFrom element.toList [] cs
    (taken.reverse, rest)

/-! ### Texts -/

/-- A text with one kind of line break. -/
def unifyBreaks : List Char → List Char
  | [] => []
  | '\r' :: '\n' :: rest => '\n' :: unifyBreaks rest
  | c :: rest => (if c == '\r' then '\n' else c) :: unifyBreaks rest

/-- The token of the content of an element. -/
def contentToken (element : String) (cs : List Char) : Token :=
  let cs := (unifyBreaks cs).map fun c => if c == '\x00' then Text.Utf8.replacement else c
  .text (if textElements.contains element then unescape cs else cs)

/-- Whether a tag or a comment starts behind an opening angle. -/
def startsMarkup : List Char → Bool
  | c :: _ => c.isAlpha || c == '/' || c == '!' || c == '?'
  | [] => false

/-- The text up to the next tag or comment, in reverse behind `taken`, and the rest. -/
def textFrom (taken : List Char) : List Char → List Char × List Char
  | [] => (taken, [])
  | c :: rest =>
    if c == '<' && startsMarkup rest then (taken, c :: rest) else textFrom (c :: taken) rest

/-- The tag or comment that starts here: its token, if it gives one, and the rest. -/
def readMarkup : List Char → List Token × List Char
  | '<' :: '/' :: [] => ([.text ['<', '/']], [])
  | '<' :: '/' :: c :: rest =>
    if c == '>' then ([], rest)
    else if c.isAlpha then
      match readTag [c] c .name rest with
      | some (tag, rest) => ([.endTag tag.name], rest)
      | none => ([], [])
    else ([], afterAngle (c :: rest))
  | '<' :: '!' :: rest => ([], afterDeclaration rest)
  | '<' :: '?' :: rest => ([], afterAngle rest)
  | '<' :: c :: rest =>
    match readTag [c] c .name rest with
    | none => ([], [])
    | some (tag, rest) =>
      let token := if tag.slash then Token.emptyTag tag.name else .startTag tag.name
      if rawElements.contains tag.name || textElements.contains tag.name then
        let (inside, rest) := content tag.name rest
        (if inside.isEmpty then [token] else [token, contentToken tag.name inside], rest)
      else ([token], rest)
  | _ => ([], [])

/-- The tokens of a text of at most `fuel` characters. -/
def tokensFrom : (fuel : Nat) → List Char → List Token
  | 0, _ => []
  | _ + 1, [] => []
  | fuel + 1, cs =>
    let (taken, rest) := textFrom [] cs
    if taken.isEmpty then
      let (tokens, rest) := readMarkup cs
      tokens ++ tokensFrom fuel rest
    else .text (unescape (unifyBreaks taken.reverse)) :: tokensFrom fuel rest

/-- The tokens of a text. -/
def tokens (cs : List Char) : List Token :=
  tokensFrom cs.length cs

end SchemaPress.Html
