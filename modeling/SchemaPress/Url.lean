import SchemaPress.Text.Casing
import SchemaPress.Text.CharClass
import SchemaPress.Text.Words

/-!
# Web addresses

`Url.parse?` reads an address without a fragment, `Url.parseReference?` one that may have a
fragment. Only the scheme and the host are kept; the rest is checked and left behind.
-/

namespace SchemaPress

/-- The scheme of an address in lower case, and its host with the port. -/
structure Url where
  scheme : String := ""
  host : String := ""
  deriving DecidableEq, Repr, Inhabited

namespace Url

/-- Whether `c` is a control character. -/
def isControl (c : Char) : Bool :=
  c.toNat < 0x20 || c.toNat == 0x7F

/-- The scheme in front of a colon, and what follows.  The outer `none` is a colon without a scheme,
the inner one an address that has no scheme. -/
def schemeOf (cs : List Char) : Option (Option (List Char × List Char)) :=
  let isTail := fun c => Char.isAlphanum c || c == '+' || c == '-' || c == '.'
  match cs with
  | [] => some none
  | c :: _ =>
    if c == ':' then none
    else if !c.isAlpha then some none
    else
      match cs.dropWhile isTail with
      | ':' :: rest => some (some (cs.takeWhile isTail, rest))
      | _ => some none

/-! ### Escapes -/

/-- Whether every percent sign starts an escape of two hexadecimal digits. -/
def escapesWell : List Char → Bool
  | '%' :: a :: b :: rest =>
    (Text.hexValue? a).isSome && (Text.hexValue? b).isSome && escapesWell rest
  | c :: rest => c != '%' && escapesWell rest
  | [] => true

/-- Whether `c` may stand in a host as it is. -/
def isHostChar (c : Char) : Bool :=
  0x80 ≤ c.toNat || c.isAlphanum
    || c ∈ ['!', '$', '&', '\'', '(', ')', '*', '+', ',', ';', '=', ':', '[', ']', '<', '>', '"',
      '-', '_', '.', '~']

/-- Whether an escape may stand in a host: that of a byte above 127, or of a percent sign.  In a
zone, that of a blank or of a character that could stand there as it is may too. -/
def isHostEscape (zone : Bool) (a b : Char) : Bool :=
  match Text.hexValue? a, Text.hexValue? b with
  | some x, some y =>
    (a == '2' && b == '5')
      || (if zone then
          let c := Char.ofNat (x * 16 + y)
          c == ' ' || (x * 16 + y < 0x80 && isHostChar c)
        else 8 ≤ x)
  | _, _ => false

/-- Whether a host, or a zone in it, is well-formed. -/
def isHost (zone : Bool) : List Char → Bool
  | '%' :: a :: b :: rest => isHostEscape zone a b && isHost zone rest
  | c :: rest => c != '%' && isHostChar c && isHost zone rest
  | [] => true

/-! ### Authorities -/

/-- A text cut in front of the last occurrence of a character. -/
def cutLast? (sep : Char) (cs : List Char) : Option (List Char × List Char) :=
  let back := cs.reverse
  if back.contains sep then
    some ((back.dropWhile (· != sep)).drop 1 |>.reverse, (back.takeWhile (· != sep)).reverse)
  else none

/-- Whether a port is well-formed: nothing, or a colon and digits. -/
def isPort : List Char → Bool
  | [] => true
  | c :: rest => c == ':' && rest.all Char.isDigit

/-- A text cut in front of the first occurrence of a word. -/
def cutBefore (word : List Char) : List Char → List Char × List Char
  | [] => ([], [])
  | c :: rest =>
    if word.isPrefixOf (c :: rest) then ([], c :: rest)
    else
      let (before, after) := cutBefore word rest
      (c :: before, after)

/-- Whether a host with its port is well-formed. -/
def isHostPort (cs : List Char) : Bool :=
  if cs.head? == some '[' then
    match cutLast? ']' cs with
    | none => false
    | some (inside, port) =>
      let (address, zone) := cutBefore ['%', '2', '5'] inside
      isPort port && isHost false address && isHost true zone && isHost false (']' :: port)
  else
    (match cutLast? ':' cs with
      | some (_, port) => isPort (':' :: port)
      | none => true) && isHost false cs

/-- Whether the part in front of the host is well-formed. -/
def isUser (cs : List Char) : Bool :=
  cs.all (fun c => c.isAlphanum || c ∈ ['-', '.', '_', ':', '~', '!', '$', '&', '\'', '(', ')', '*',
    '+', ',', ';', '=', '%', '@']) && escapesWell cs

/-- The host of an authority, if it is well-formed. -/
def host? (authority : List Char) : Option String :=
  match cutLast? '@' authority with
  | some (user, host) =>
    if isUser user && isHostPort host then some (String.ofList host) else none
  | none => if isHostPort authority then some (String.ofList authority) else none

/-! ### Addresses -/

/-- The part of a text in front of its query. -/
def withoutQuery (cs : List Char) : List Char :=
  cs.takeWhile (· != '?')

/-- Reads what follows the scheme; `request` asks for an address that stands on its own. -/
def afterScheme? (request : Bool) (scheme : String) (cs : List Char) : Option Url :=
  let rest := withoutQuery cs
  if rest.head? != some '/' then
    if scheme != "" then some { scheme }
    else if request then none
    else if (rest.takeWhile (· != '/')).contains ':' then none
    else if escapesWell rest then some {} else none
  else if ['/', '/'].isPrefixOf rest
      && (scheme != "" || (!request && !(['/', '/', '/'].isPrefixOf rest))) then
    let authority := (rest.drop 2).takeWhile (· != '/')
    let path := (rest.drop 2).dropWhile (· != '/')
    match host? authority with
    | some host => if escapesWell path then some { scheme, host } else none
    | none => none
  else if escapesWell rest then some { scheme } else none

/-- Reads an address without a fragment; `request` asks for one that stands on its own. -/
def parse? (request : Bool) (s : String) : Option Url :=
  let cs := s.toList
  if cs.any isControl || (request && cs.isEmpty) then none
  else if cs == ['*'] then some {}
  else
    match schemeOf cs with
    | none => none
    | some none => afterScheme? request "" cs
    | some (some (scheme, rest)) => afterScheme? request (Text.lower (String.ofList scheme)) rest

/-- Reads an address that may have a fragment. -/
def parseReference? (s : String) : Option Url :=
  let cs := s.toList
  (parse? false (String.ofList (cs.takeWhile (· != '#')))).bind fun url =>
    let fragment := (cs.dropWhile (· != '#')).drop 1
    if escapesWell fragment then some url else none

/-- Whether an address is one of the web. -/
def isWeb (url : Url) : Bool :=
  url.scheme == "http" || url.scheme == "https"

end Url

end SchemaPress
