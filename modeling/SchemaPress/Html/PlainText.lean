import SchemaPress.Html.Token

/-!
# The text of an HTML text

`Html.plainText` drops all tags, and with some elements what they hold, and writes what is left as
HTML again.
-/

namespace SchemaPress.Html

/-- The elements that are dropped together with what they hold. -/
def droppedElements : List String :=
  ["frame", "frameset", "iframe", "noembed", "noframes", "noscript", "nostyle", "object"]

/-- The elements whose own text is dropped. -/
def codeElements : List String := ["script", "style"]

/-- The state of dropping: the number of dropped elements that are open, whether text is dropped in
them, and whether the last tag opened an element of code. -/
structure Dropping where
  depth : Int := 0
  active : Bool := false
  code : Option String := none
  deriving Repr, Inhabited

/-- The state after a tag. -/
def Dropping.tag (d : Dropping) : Token → Dropping
  | .startTag name =>
    let d := { d with code := if codeElements.contains name then some name else none }
    if droppedElements.contains name then { d with depth := d.depth + 1, active := true } else d
  | .endTag name =>
    let d := if d.code == some name then { d with code := none } else d
    if droppedElements.contains name then
      { d with depth := d.depth - 1, active := d.active && d.depth != 1 }
    else d
  | _ => d

/-- The text of some tokens, written as HTML. -/
def textOfTokens (d : Dropping) : List Token → List Char
  | [] => []
  | .text cs :: rest =>
    if d.active || d.code.isSome then textOfTokens d rest
    else cs.flatMap escapedChar ++ textOfTokens d rest
  | t :: rest => textOfTokens (d.tag t) rest

/-- The text of an HTML text. -/
def plainText (s : String) : String :=
  String.ofList (textOfTokens {} (tokens s.toList))

end SchemaPress.Html
