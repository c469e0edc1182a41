import SchemaPress.Yaml.Lexeme.Block
import SchemaPress.Yaml.Lexeme.Name
import SchemaPress.Yaml.Lexeme.Plain
import SchemaPress.Yaml.Lexeme.Quoted

/-!
# Cutting a YAML stream into tokens

`Token.scan` gives the tokens of a stream, or those that are certain in front of the first fault.
Blocks are told by their indentation: a line further in opens one and a line further out closes it,
so the opening and closing tokens stand for nothing in the text.  A key without an indicator is only
known as one when its colon comes.  Until then its place in the token list is kept as a
`PendingKey`; it has to fit into one line and 1024 characters.
-/

namespace SchemaPress.Yaml

/-- The greatest nesting of flow collections, and of blocks. -/
def maxNesting : Nat := 10000

/-- The greatest length of a key without an indicator. -/
def maxKeyLength : Nat := 1024

/-- The most characters up to a comment. -/
def commentReach : Nat := 512

/-- The number of tokens that are read ahead. -/
def lookahead : Nat := 2

/-- A place where a key may have started: the number of its first token and its position.  It is
`required` if nothing but a key can stand there. -/
structure PendingKey where
  required : Bool
  token : Nat
  mark : Mark
  deriving Repr, Inhabited

/-- Whether a possible key may still turn out to be one at `mark`. -/
def PendingKey.isLive (mark : Mark) (k : PendingKey) : Bool :=
  k.mark.line == mark.line && mark.index ≤ k.mark.index + maxKeyLength

/-- The state of scanning.  The tokens stand in reverse and `count` is their number.  `indent` is
the column of the innermost block and `outer` the columns of those around it; `pending` holds a
possible key for each open flow collection, innermost first, and for the block around them. -/
structure Scanner where
  cursor : Cursor
  tokens : List Token := []
  count : Nat := 0
  indent : Option Nat := none
  outer : List (Option Nat) := []
  flow : Nat := 0
  keyAllowed : Bool := true
  pending : List (Option PendingKey) := [none]
  ended : Bool := false
  deriving Inhabited

namespace Scanner

/-- The position reached. -/
def mark (s : Scanner) : Mark :=
  s.cursor.mark

/-- Adds a token that starts at the given line. -/
def addAt (s : Scanner) (line : Nat) (kind : TokenKind) : Scanner :=
  { s with tokens := ⟨kind, line⟩ :: s.tokens, count := s.count + 1 }

/-- Adds a token that starts here. -/
def add (s : Scanner) (kind : TokenKind) : Scanner :=
  s.addAt s.mark.line kind

/-- Puts a token in front of the one with number `place`. -/
def insertAt (s : Scanner) (place : Nat) (token : Token) : Scanner :=
  let after := s.count - place
  { s with tokens := s.tokens.take after ++ token :: s.tokens.drop after, count := s.count + 1 }

/-- Adds a token of `n` characters and goes on behind it. -/
def take (s : Scanner) (n : Nat) (kind : TokenKind) : Scanner :=
  { s.add kind with cursor := s.cursor.skip n }

/-! ### Keys without an indicator -/

/-- Gives up the possible key of the innermost level; a required one is a fault. -/
def dropKey (s : Scanner) : Option Scanner :=
  match s.pending with
  | some k :: rest => if k.required then none else some { s with pending := none :: rest }
  | _ => some s

/-- Notes that a key may start here, if one is allowed. -/
def noteKey (s : Scanner) : Option Scanner :=
  if s.keyAllowed then do
    let required := s.flow == 0 && s.indent == some s.mark.column
    let s ← s.dropKey
    some { s with pending := some ⟨required, s.count, s.mark⟩ :: s.pending.drop 1 }
  else some s

/-- Tells whether a key may follow. -/
def allowKey (s : Scanner) (allowed : Bool) : Scanner :=
  { s with keyAllowed := allowed }

/-! ### Blocks -/

/-- Whether a column is further in than a block. -/
def isDeeper (column : Nat) : Option Nat → Bool
  | none => true
  | some indent => indent < column

/-- Opens a block at a column further in; its token goes in front of the one with number `place`. -/
def openBlock (s : Scanner) (column place line : Nat) (kind : TokenKind) : Option Scanner :=
  if 0 < s.flow || !isDeeper column s.indent then some s
  else if maxNesting ≤ s.outer.length then none
  else
    some { s.insertAt place ⟨kind, line⟩ with outer := s.indent :: s.outer, indent := some column }

/-- Opens a block here. -/
def openHere (s : Scanner) (kind : TokenKind) : Option Scanner :=
  s.openBlock s.mark.column s.count s.mark.line kind

/-- Closes the blocks of the columns `indent` and `outer` that are further in than `column`, where
`none` is in front of all columns. -/
def closeFrom (column : Option Nat) (s : Scanner) (indent : Option Nat) :
    List (Option Nat) → Scanner
  | [] => { s with indent, outer := [] }
  | next :: outer =>
    let further :=
      match indent, column with
      | none, _ => false
      | some _, none => true
      | some i, some c => c < i
    if further then closeFrom column (s.add .blockEnd) next outer
    else { s with indent, outer := next :: outer }

/-- Closes the blocks further in than `column`; inside a flow collection there is nothing to close.
-/
def closeBlocks (s : Scanner) (column : Option Nat) : Scanner :=
  if 0 < s.flow then s else closeFrom column s s.indent s.outer

/-! ### Blanks and comments -/

/-- Whether there is a comment within reach, with nothing but blanks in front of it; `lines` tells
whether line breaks are passed over too. -/
def commentAhead (lines : Bool) : (reach : Nat) → List Char → Bool
  | reach + 1, c :: rest =>
    c == '#' || ((isGap c || (lines && isBreak c)) && commentAhead lines reach rest)
  | _, _ => false

/-- Goes over blanks, comments and line breaks, and tells whether a key may follow.  Tabs count as
blanks only where no key may start, except between two comments (`between`). -/
def toToken (flow keyAllowed between comment : Bool) (mark : Mark) : List Char → Bool × Cursor
  | [] => (keyAllowed, ⟨mark, []⟩)
  | '\r' :: '\n' :: rest =>
    let between :=
      if comment then commentAhead true commentReach ('\r' :: '\n' :: rest) else between
    toToken flow (keyAllowed || !flow) between false (mark.nextLine 2) rest
  | c :: rest =>
    if isBreak c then
      let between := if comment then commentAhead true commentReach (c :: rest) else between
      toToken flow (keyAllowed || !flow) between false (mark.nextLine 1) rest
    else if comment || c == '#' then toToken flow keyAllowed false true (mark.ahead 1) rest
    else if c == ' ' || (c == '\t' && (flow || !keyAllowed || between))
        || (c == '\uFEFF' && mark.column == 0) then
      toToken flow keyAllowed between false (mark.ahead 1) rest
    else (keyAllowed, ⟨mark, c :: rest⟩)

/-- Goes on to the next token. -/
def advance (s : Scanner) : Scanner :=
  let (keyAllowed, cursor) := toToken (0 < s.flow) s.keyAllowed false false s.mark s.cursor.rest
  { s with keyAllowed, cursor }

/-- Goes over a comment behind a token, in the same line. -/
def lineComment (s : Scanner) : Scanner :=
  if commentAhead false commentReach s.cursor.rest then { s with cursor := s.cursor.toLineEnd }
  else s

/-! ### Tokens -/

/-- The end of the stream closes all blocks. -/
def endStream (s : Scanner) : Option Scanner := do
  let s ← (s.closeBlocks none).dropKey
  some { (s.allowKey false).add .streamEnd with ended := true }

/-- A directive closes all blocks. -/
def directive (s : Scanner) : Option Scanner := do
  let s ← (s.closeBlocks none).dropKey
  let (kind, cursor) ← Name.directive? s.cursor
  some { (s.allowKey false).add kind with cursor }

/-- A document mark closes all blocks. -/
def documentMark (s : Scanner) (kind : TokenKind) : Option Scanner := do
  let s ← (s.closeBlocks none).dropKey
  some ((s.allowKey false).take 3 kind)

/-- The start of a flow collection. -/
def openFlow (s : Scanner) (kind : TokenKind) : Option Scanner := do
  let s ← s.noteKey
  if maxNesting ≤ s.flow then none
  let s := { s with flow := s.flow + 1, pending := none :: s.pending }
  some ((s.allowKey true).take 1 kind)

/-- The end of a flow collection. -/
def closeFlow (s : Scanner) (kind : TokenKind) : Option Scanner := do
  let s ← s.dropKey
  let s := if 0 < s.flow then { s with flow := s.flow - 1, pending := s.pending.drop 1 } else s
  some ((s.allowKey false).take 1 kind)

/-- The comma of a flow collection. -/
def flowEntry (s : Scanner) : Option Scanner := do
  let s ← s.dropKey
  some ((s.allowKey true).take 1 .flowEntry)

/-- The dash of a block sequence. -/
def blockEntry (s : Scanner) : Option Scanner := do
  if s.flow == 0 && !s.keyAllowed then none
  let s ← s.openHere .blockSequenceStart
  let s ← s.dropKey
  some ((s.allowKey true).take 1 .blockEntry)

/-- The indicator of a key. -/
def explicitKey (s : Scanner) : Option Scanner := do
  if s.flow == 0 && !s.keyAllowed then none
  let s ← s.openHere .blockMappingStart
  let s ← s.dropKey
  some ((s.allowKey (s.flow == 0)).take 1 .key)

/-- The colon behind a key that had an indicator. -/
def explicitValue (s : Scanner) : Option Scanner := do
  if s.flow == 0 && !s.keyAllowed then none
  let s ← s.openHere .blockMappingStart
  some ((s.allowKey (s.flow == 0)).take 1 .value)

/-- The colon: what was a possible key is one. -/
def value (s : Scanner) : Option Scanner :=
  match s.pending with
  | some k :: rest =>
    if k.isLive s.mark then do
      let s := { s with pending := none :: rest }
      let s := s.insertAt k.token ⟨.key, k.mark.line⟩
      let s ← s.openBlock k.mark.column k.token k.mark.line .blockMappingStart
      some ((s.allowKey false).take 1 .value)
    else if k.required then none
    else explicitValue { s with pending := none :: rest }
  | _ => s.explicitValue

/-- A token that is read from the text and may start a key. -/
def lexeme (s : Scanner) (read : Cursor → Option (TokenKind × Cursor)) : Option Scanner := do
  let s ← s.noteKey
  let (kind, cursor) ← read s.cursor
  some { (s.allowKey false).add kind with cursor }

/-- A block scalar; a key may follow it. -/
def blockScalar (s : Scanner) : Option Scanner := do
  let s ← s.dropKey
  let (text, cursor) ← Block.read? s.indent s.cursor
  some { (s.allowKey true).add (.scalar text .block) with cursor }

/-- A plain scalar; a key may follow it in a later line. -/
def plainScalar (s : Scanner) : Option Scanner := do
  let s ← s.noteKey
  let indent := match s.indent with | none => 0 | some i => i + 1
  let (text, broken, cursor) ← Plain.read? (0 < s.flow) indent s.cursor
  let s := { (s.allowKey broken).add (.scalar text .plain) with cursor }
  some (if broken then s else s.lineComment)

/-- Whether a plain scalar may start with `c` in front of `rest`. -/
def startsPlain (flow : Bool) (c : Char) (rest : List Char) : Bool :=
  !(isGap c || isBreak c || c ∈ ['-', '?', ':', ',', '[', ']', '{', '}', '#', '&', '*', '!',
    '|', '>', '\'', '"', '%', '@', '`'])
    || (c == '-' && !(rest.head?.any isGap))
    || (!flow && (c == '?' || c == ':') && !atGap rest)

/-- The token that starts with `c`. -/
def token (s : Scanner) (c : Char) (rest : List Char) : Option Scanner :=
  let flow := decide (0 < s.flow)
  if c == '[' then (s.openFlow .flowSequenceStart).map lineComment
  else if c == '{' then (s.openFlow .flowMappingStart).map lineComment
  else if c == ']' then (s.closeFlow .flowSequenceEnd).map lineComment
  else if c == '}' then (s.closeFlow .flowMappingEnd).map lineComment
  else if c == ',' then s.flowEntry.map lineComment
  else if c == '-' && atGap rest then s.blockEntry
  else if c == '?' && (flow || atGap rest) then s.explicitKey.map lineComment
  else if c == ':' && (flow || atGap rest) then s.value.map lineComment
  else if c == '*' then
    (s.lexeme fun c => (Name.anchor? c).map fun (n, c) => (.alias n, c)).map lineComment
  else if c == '&' then
    (s.lexeme fun c => (Name.anchor? c).map fun (n, c) => (.anchor n, c)).map lineComment
  else if c == '!' then (s.lexeme Name.tag?).map lineComment
  else if (c == '|' || c == '>') && !flow then s.blockScalar
  else if c == '\'' || c == '"' then
    (s.lexeme fun c => (Quoted.read? c).map fun (t, c) => (.scalar t .quoted, c)).map lineComment
  else if startsPlain flow c rest then s.plainScalar
  else none

/-- Reads one more token, with the ends of the blocks in front of it. -/
def step (s : Scanner) : Option Scanner :=
  let s := s.advance
  let s := s.closeBlocks (some s.mark.column)
  match s.cursor.rest with
  | [] => s.endStream
  | c :: rest =>
    if s.mark.column == 0 && c == '%' then s.directive
    else if s.mark.column == 0 && atDocumentMark (c :: rest) then
      s.documentMark (if c == '-' then .documentStart else .documentEnd)
    else s.token c rest

/-- The tokens that are certain although the stream goes on with a fault: those with enough tokens
behind them, and none from the first possible key on. -/
def certain (s : Scanner) : List Token :=
  let keys := s.pending.filterMap fun k =>
    k.bind fun k => if k.required || k.isLive s.mark then some k.token else none
  s.tokens.reverse.take (keys.foldl min (s.count - lookahead))

/-- Reads on until the stream ends or there is a fault; each step takes at least a character. -/
def run : (steps : Nat) → Scanner → List Token
  | 0, s => s.certain
  | steps + 1, s =>
    match s.step with
    | some s => if s.ended then s.tokens.reverse else run steps s
    | none => s.certain

end Scanner

/-- The tokens of a stream; without its end, if there is a fault in it. -/
def Token.scan (cs : List Char) : List Token :=
  Scanner.run (cs.length + 1) { cursor := ⟨{}, cs⟩ }

end SchemaPress.Yaml
