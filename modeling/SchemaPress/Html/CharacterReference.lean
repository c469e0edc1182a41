import SchemaPress.Html.Entity
import SchemaPress.Text.Utf8

/-!
# Character references

`Html.unescape` replaces references such as `&amp;` and `&#38;` by what they stand for.  A name that
needs no semicolon is also found at the start of a longer word.  What is no reference stays as it
is.
-/

namespace SchemaPress.Html

/-- The characters that the numbers from 128 to 159 stand for. -/
def windowsChars : List Nat :=
  [0x20AC, 0x81, 0x201A, 0x192, 0x201E, 0x2026, 0x2020, 0x2021, 0x2C6, 0x2030, 0x160, 0x2039, 0x152,
    0x8D, 0x17D, 0x8F, 0x90, 0x2018, 0x2019, 0x201C, 0x201D, 0x2022, 0x2013, 0x2014, 0x2DC, 0x2122,
    0x161, 0x203A, 0x153, 0x9D, 0x17E, 0x178]

/-- The character of a number, which is taken as a signed number of 32 bits. -/
def numbered (n : Nat) : Char :=
  let n := n % Nat.pow 2 32
  if 0x80 ≤ n && n ≤ 0x9F then Char.ofNat (windowsChars.getD (n - 0x80) 0)
  else if n == 0 || (0xD800 ≤ n && n ≤ 0xDFFF) || 0x10FFFF < n then Text.Utf8.replacement
  else Char.ofNat n

/-- The text after a reference, without its semicolon. -/
def dropSemicolon : List Char → List Char
  | ';' :: rest => rest
  | rest => rest

/-- The reference by a decimal number whose digits start here.  A single digit needs the semicolon.
-/
def decimal? (cs : List Char) : Option (Char × List Char) :=
  let digits := cs.takeWhile Char.isDigit
  let rest := cs.dropWhile Char.isDigit
  if digits.length + (rest.length - (dropSemicolon rest).length) < 2 then none
  else if digits.isEmpty then none
  else some (numbered (digits.foldl (fun n c => n * 10 + (c.toNat - 48)) 0), dropSemicolon rest)

/-- The reference by a hexadecimal number whose digits start here: at least a digit or the
semicolon. -/
def hexadecimal? (cs : List Char) : Option (Char × List Char) :=
  let isHex := fun c => (Text.hexValue? c).isSome
  let digits := cs.takeWhile isHex
  let rest := cs.dropWhile isHex
  if digits.isEmpty && rest.head? != some ';' then none
  else some (numbered ((Text.hexNumber? digits).getD 0), dropSemicolon rest)

/-- The longest name that needs no semicolon among the first `n` characters of a word, if it has two
characters or more. -/
def bareName? (word : List Char) : (n : Nat) → Option (List Char × Nat)
  | 0 | 1 => none
  | n + 2 =>
    match named? (word.take (n + 2)) with
    | some cs => some (cs, n + 2)
    | none => bareName? word (n + 1)

/-- The reference by name whose word starts here: what it stands for and how much of the text it
takes. -/
def byName? (cs : List Char) : Option (List Char × List Char) :=
  let word := cs.takeWhile Char.isAlphanum
  let rest := cs.dropWhile Char.isAlphanum
  let full := if rest.head? == some ';' then word ++ [';'] else word
  match named? full with
  | some chars => some (chars, cs.drop full.length)
  | none =>
    (bareName? full (min (full.length - 1) longestBareName)).map fun (chars, n) =>
      (chars, cs.drop n)

/-- The reference behind an ampersand, and what follows it. -/
def reference? : List Char → Option (List Char × List Char)
  | '#' :: c :: d :: rest =>
    if c == 'x' || c == 'X' then (hexadecimal? (d :: rest)).map fun (c, rest) => ([c], rest)
    else (decimal? (c :: d :: rest)).map fun (c, rest) => ([c], rest)
  | '#' :: _ => none
  | cs => byName? cs

/-- Replaces the references of a text of at most `fuel` characters. -/
def unescapeFrom : (fuel : Nat) → List Char → List Char
  | 0, cs => cs
  | _ + 1, [] => []
  | fuel + 1, c :: rest =>
    if c == '&' then
      match reference? rest with
      | some (chars, rest) => chars ++ unescapeFrom fuel rest
      | none => '&' :: unescapeFrom fuel rest
    else c :: unescapeFrom fuel rest

/-- Replaces the references of a text. -/
def unescape (cs : List Char) : List Char :=
  unescapeFrom cs.length cs

/-- A character of a text as it is written in HTML. -/
def escapedChar (c : Char) : List Char :=
  match c with
  | '&' => "&amp;".toList
  | '<' => "&lt;".toList
  | '>' => "&gt;".toList
  | '"' => "&#34;".toList
  | '\'' => "&#39;".toList
  | '\r' => "&#13;".toList
  | c => [c]

end SchemaPress.Html
