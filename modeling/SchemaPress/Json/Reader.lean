import SchemaPress.Json.Basic
import SchemaPress.Text.CharClass
import SchemaPress.Text.Utf8

/-!
# Reading JSON text

`Json.parse?` reads a whole text, blanks around the value allowed, and gives nothing if the text is
no JSON or is nested more than `maxNesting` deep.  In strings an escaped surrogate pair is one
character and a lone surrogate is U+FFFD.

The reader is a family of functions that take the characters still to be read and give back the
rest. Each recursion has a bound that a text of the given length cannot reach.
-/

namespace SchemaPress.Json

/-- The most arrays and objects that may be open at a time. -/
def maxNesting : Nat := 10000

/-- Whether `c` may stand between the parts of a JSON text. -/
def isGap (c : Char) : Bool :=
  c == ' ' || c == '\t' || c == '\r' || c == '\n'

/-- The text after any gap. -/
def skipGap (cs : List Char) : List Char :=
  cs.dropWhile isGap

/-- The number of a `\u` escape: exactly four hexadecimal digits. -/
def unit? : List Char → Option (Nat × List Char)
  | a :: b :: c :: d :: rest => (Text.hexNumber? [a, b, c, d]).map (·, rest)
  | _ => none

/-- The character of an escape sequence that is a backslash and one letter. -/
def escape? : Char → Option Char
  | '"' => some '"'
  | '\\' => some '\\'
  | '/' => some '/'
  | 'b' => some '\x08'
  | 'f' => some '\x0c'
  | 'n' => some '\n'
  | 'r' => some '\r'
  | 't' => some '\t'
  | _ => none

/-- Whether `n` is the first half of a surrogate pair. -/
def isHigh (n : Nat) : Bool := 0xD800 ≤ n && n ≤ 0xDBFF

/-- Whether `n` is the second half of a surrogate pair. -/
def isLow (n : Nat) : Bool := 0xDC00 ≤ n && n ≤ 0xDFFF

/-- The character that a `\u` escape with number `n` stands for, given what follows it: a surrogate
pair takes the next escape too, a lone surrogate is U+FFFD. -/
def unitChar (n : Nat) (rest : List Char) : Char × List Char :=
  if isHigh n then
    match rest with
    | '\\' :: 'u' :: more =>
      match unit? more with
      | some (m, more) =>
        if isLow m then (Char.ofNat (0x10000 + (n - 0xD800) * 0x400 + (m - 0xDC00)), more)
        else (Text.Utf8.replacement, rest)
      | none => (Text.Utf8.replacement, rest)
    | _ => (Text.Utf8.replacement, rest)
  else if isLow n then (Text.Utf8.replacement, rest)
  else (Char.ofNat n, rest)

/-- Reads a string after its opening quote; `acc` holds the characters read so far, in reverse. -/
def stringFrom : (fuel : Nat) → (acc : List Char) → List Char → Option (String × List Char)
  | 0, _, _ => none
  | fuel + 1, acc, cs =>
    match cs with
    | [] => none
    | '"' :: rest => some (String.ofList acc.reverse, rest)
    | '\\' :: 'u' :: rest =>
      match unit? rest with
      | some (n, rest) =>
        let (c, rest) := unitChar n rest
        stringFrom fuel (c :: acc) rest
      | none => none
    | '\\' :: e :: rest =>
      match escape? e with
      | some c => stringFrom fuel (c :: acc) rest
      | none => none
    | c :: rest => if c.toNat < 0x20 || c == '\\' then none else stringFrom fuel (c :: acc) rest

/-- Reads one or more decimal digits. -/
def digits? (cs : List Char) : Option (List Char × List Char) :=
  let ds := cs.takeWhile Char.isDigit
  if ds.isEmpty then none else some (ds, cs.dropWhile Char.isDigit)

/-- Reads the integer part of a number: a zero, or digits that do not start with one. -/
def whole? : List Char → Option (List Char × List Char)
  | '0' :: rest => some (['0'], rest)
  | cs => digits? cs

/-- Reads the part of a number after the point, if there is a point. -/
def part? : List Char → Option (List Char × List Char)
  | '.' :: rest => (digits? rest).map fun (ds, rest) => ('.' :: ds, rest)
  | cs => some ([], cs)

/-- Reads the exponent of a number, if there is one. -/
def power? : List Char → Option (List Char × List Char)
  | c :: rest =>
    if c == 'e' || c == 'E' then
      match rest with
      | '+' :: rest => (digits? rest).map fun (ds, rest) => (c :: '+' :: ds, rest)
      | '-' :: rest => (digits? rest).map fun (ds, rest) => (c :: '-' :: ds, rest)
      | rest => (digits? rest).map fun (ds, rest) => (c :: ds, rest)
    else some ([], c :: rest)
  | [] => some ([], [])

/-- Reads a number and keeps its literal. -/
def number? (cs : List Char) : Option (Json × List Char) := do
  let (sign, rest) := match cs with
    | '-' :: rest => (['-'], rest)
    | rest => ([], rest)
  let (whole, rest) ← whole? rest
  let (part, rest) ← part? rest
  let (power, rest) ← power? rest
  return (.number (String.ofList (sign ++ whole ++ part ++ power)), rest)

mutual

/-- Reads a value that starts right at `cs`, inside `nesting` open arrays and objects. -/
def value? : (fuel : Nat) → (nesting : Nat) → List Char → Option (Json × List Char)
  | 0, _, _ => none
  | fuel + 1, nesting, cs =>
    match cs with
    | '{' :: rest =>
      if nesting < maxNesting then
        match skipGap rest with
        | '}' :: rest => some (.object [], rest)
        | rest => members? fuel (nesting + 1) [] rest
      else none
    | '[' :: rest =>
      if nesting < maxNesting then
        match skipGap rest with
        | ']' :: rest => some (.array [], rest)
        | rest => elements? fuel (nesting + 1) [] rest
      else none
    | '"' :: rest => (stringFrom fuel [] rest).map fun (s, rest) => (.string s, rest)
    | 't' :: 'r' :: 'u' :: 'e' :: rest => some (.bool true, rest)
    | 'f' :: 'a' :: 'l' :: 's' :: 'e' :: rest => some (.bool false, rest)
    | 'n' :: 'u' :: 'l' :: 'l' :: rest => some (.null, rest)
    | cs => number? cs

/-- Reads the items of an array up to its closing bracket; `acc` holds those read so far, in
reverse. -/
def elements? : (fuel : Nat) → (nesting : Nat) → (acc : List Json) → List Char →
    Option (Json × List Char)
  | 0, _, _, _ => none
  | fuel + 1, nesting, acc, cs =>
    match value? fuel nesting cs with
    | none => none
    | some (v, rest) =>
      match skipGap rest with
      | ',' :: rest => elements? fuel nesting (v :: acc) (skipGap rest)
      | ']' :: rest => some (.array (v :: acc).reverse, rest)
      | _ => none

/-- Reads the fields of an object up to its closing brace; `acc` holds those read so far, in
reverse. -/
def members? : (fuel : Nat) → (nesting : Nat) → (acc : List (String × Json)) → List Char →
    Option (Json × List Char)
  | 0, _, _, _ => none
  | fuel + 1, nesting, acc, cs =>
    match cs with
    | '"' :: rest =>
      match stringFrom fuel [] rest with
      | none => none
      | some (name, rest) =>
        match skipGap rest with
        | ':' :: rest =>
          match value? fuel nesting (skipGap rest) with
          | none => none
          | some (v, rest) =>
            match skipGap rest with
            | ',' :: rest => members? fuel nesting ((name, v) :: acc) (skipGap rest)
            | '}' :: rest => some (.object ((name, v) :: acc).reverse, rest)
            | _ => none
        | _ => none
    | _ => none

end

/-- Reads a whole text as one JSON value. -/
def parse? (cs : List Char) : Option Json :=
  match value? (2 * cs.length + 4) 0 (skipGap cs) with
  | some (v, rest) => if (skipGap rest).isEmpty then some v else none
  | none => none

end SchemaPress.Json
