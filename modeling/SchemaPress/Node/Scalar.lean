import SchemaPress.Text.Utf8
import SchemaPress.Value.Basic

/-!
# Scalars of a document

A scalar is a text with a tag.  `Tag.ofPlain` is the tag that a plain text has by its spelling, and
`Scalar.value?` is what a tagged text denotes: a text whose spelling does not fit its tag denotes
nothing.  The spellings are those of YAML 1.1 with the octal numbers of 1.2, and without the numbers
of base sixty.
-/

namespace SchemaPress

/-- The kind of value that a scalar stands for; `other` is a tag without a meaning here. -/
inductive Tag where
  | null
  | bool
  | int
  | float
  | str
  | timestamp
  | binary
  | merge
  | other (name : String)
  deriving DecidableEq, Repr, Inhabited

/-- A tagged text, with the line on which it starts (counted from one; zero if it has none). -/
structure Scalar where
  tag : Tag
  text : String
  line : Nat := 0
  deriving DecidableEq, Repr, Inhabited

namespace Spelling

open Decimal

/-- The number that digits of a base denote; there has to be at least one unless `empty` is set. -/
def natOfBase? (base : Nat) (empty : Bool) (cs : List Char) : Option Nat :=
  if cs.isEmpty && !empty then none
  else
    cs.foldl (fun acc c => acc.bind fun n =>
      let d := if c.isDigit then c.toNat - 48
        else if 'a' ≤ c && c ≤ 'z' then c.toNat - 87
        else if 'A' ≤ c && c ≤ 'Z' then c.toNat - 55
        else 36
      if d < base then some (n * base + d) else none) (some 0)

/-- A number without sign whose spelling gives its base: `0x`, `0o`, `0b`, a leading zero for eight.
-/
def natOfMark? : List Char → Option Nat
  | '0' :: c :: d :: rest =>
    if c == 'x' || c == 'X' then natOfBase? 16 false (d :: rest)
    else if c == 'b' || c == 'B' then natOfBase? 2 false (d :: rest)
    else if c == 'o' || c == 'O' then natOfBase? 8 false (d :: rest)
    else natOfBase? 8 false (c :: d :: rest)
  | '0' :: rest => natOfBase? 8 true rest
  | cs => natOfBase? 10 false cs

/-- Puts a sign to a magnitude, if the result has 64 bits. -/
def signed? (negative : Bool) (n : Nat) : Option Int :=
  if negative then if n ≤ Nat.pow 2 63 then some (-(n : Int)) else none
  else if n < Nat.pow 2 63 then some n else none

/-- A signed number of 64 bits in a given base. -/
def intOfBase? (base : Nat) (cs : List Char) : Option Int :=
  let (negative, digits) := takeSign cs
  (natOfBase? base false digits).bind (signed? negative)

/-- An unsigned number of 64 bits. -/
def word? (n : Option Nat) : Option Int :=
  n.bind fun n => if n < Nat.pow 2 64 then some (n : Int) else none

/-- An integer whose spelling gives its base: a signed number of 64 bits or an unsigned one. -/
def int? (cs : List Char) : Option Int :=
  let (negative, digits) := takeSign cs
  ((natOfMark? digits).bind (signed? negative)).orElse fun _ => word? (natOfMark? cs)

/-- A number whose sign stands after the mark of its base, or in front of it. -/
def markedInt? (mark : Char) (base : Nat) : List Char → Option Int
  | '0' :: c :: rest =>
    if c == mark then (intOfBase? base rest).orElse fun _ => word? (natOfBase? base false rest)
    else none
  | '-' :: '0' :: c :: rest => if c == mark then intOfBase? base ('-' :: rest) else none
  | _ => none

/-- The finite float that a literal denotes. -/
def finite? (cs : List Char) : Option Binary64 :=
  match (Literal.parse? cs).map Literal.value with
  | some (.finite s m e) => some (.finite s m e)
  | _ => none

/-- Whether each underscore stands between two digits. -/
def underscoresDivide : (afterDigit : Bool) → List Char → Bool
  | _, [] => true
  | afterDigit, '_' :: c :: rest => afterDigit && c.isDigit && underscoresDivide true rest
  | _, ['_'] => false
  | _, c :: rest => underscoresDivide c.isDigit rest

/-- The names of the values that have one. -/
def named? (s : String) : Option (Tag × Value) :=
  if s ∈ ["true", "True", "TRUE"] then some (.bool, .bool true)
  else if s ∈ ["false", "False", "FALSE"] then some (.bool, .bool false)
  else if s ∈ ["", "~", "null", "Null", "NULL"] then some (.null, .null)
  else if s ∈ [".nan", ".NaN", ".NAN"] then some (.float, .float .nan)
  else if s ∈ [".inf", ".Inf", ".INF", "+.inf", "+.Inf", "+.INF"] then
    some (.float, .float (.infinite false))
  else if s ∈ ["-.inf", "-.Inf", "-.INF"] then some (.float, .float (.infinite true))
  else none

/-- The number that a text starting with a sign or a digit denotes; underscores are left out. -/
def number? (cs : List Char) : Option (Tag × Value) :=
  let plain := cs.filter (· != '_')
  ((int? plain).map fun n => (Tag.int, Value.int n)).orElse fun _ =>
  ((finite? plain).map fun x => (Tag.float, Value.float x)).orElse fun _ =>
  ((markedInt? 'b' 2 plain).map fun n => (Tag.int, Value.int n)).orElse fun _ =>
  (markedInt? 'o' 8 plain).map fun n => (Tag.int, Value.int n)

/-- The tag and the value of a plain text; `times` tells whether points in time are recognised. -/
def read? (times : Bool) (s : String) : Option (Tag × Value) :=
  (named? s).orElse fun _ =>
    match s.toList with
    | '.' :: rest =>
      if underscoresDivide false rest then
        (finite? (('.' :: rest).filter (· != '_'))).map fun x => (Tag.float, Value.float x)
      else none
    | c :: rest =>
      if c == '+' || c == '-' || c.isDigit then
        (if times then (Timestamp.parse? (c :: rest)).map fun t => (Tag.timestamp, Value.time t)
          else none).orElse fun _ => number? (c :: rest)
      else none
    | [] => none

end Spelling

/-- The tag of a plain text without an explicit tag. -/
def Tag.ofPlain (s : String) : Tag :=
  if s == "<<" then .merge
  else ((Spelling.read? true s).map (·.1)).getD .str

namespace Base64

/-- The value of a digit of base sixty-four. -/
def digit? (c : Char) : Option Nat :=
  if 'A' ≤ c && c ≤ 'Z' then some (c.toNat - 65)
  else if 'a' ≤ c && c ≤ 'z' then some (c.toNat - 71)
  else if c.isDigit then some (c.toNat + 4)
  else if c == '+' then some 62
  else if c == '/' then some 63
  else none

/-- The bytes of groups of four digits, the last of which may be filled up with `=`. -/
def decode? : List Char → Option (List UInt8)
  | [] => some []
  | [a, b, '=', '='] => do
    let n := (← digit? a) * 64 + (← digit? b)
    some [UInt8.ofNat (n / 16)]
  | [a, b, c, '='] => do
    let n := ((← digit? a) * 64 + (← digit? b)) * 64 + (← digit? c)
    some [UInt8.ofNat (n / 1024), UInt8.ofNat (n / 4)]
  | a :: b :: c :: d :: rest => do
    let n := (((← digit? a) * 64 + (← digit? b)) * 64 + (← digit? c)) * 64 + (← digit? d)
    some (UInt8.ofNat (n / 65536) :: UInt8.ofNat (n / 256) :: UInt8.ofNat n :: (← decode? rest))
  | _ => none

/-- The text whose bytes are written in base sixty-four; line ends do not count. -/
def text? (s : String) : Option String :=
  (decode? (s.toList.filter fun c => c != '\n' && c != '\r')).map fun bytes =>
    String.ofList (Text.Utf8.decode bytes)

end Base64

namespace Scalar

/-- The value of a text under a tag that fixes its spelling.  An integer of 63 bits is also a float.
-/
def spelled? (tag : Tag) (s : String) : Option Value :=
  match Spelling.read? (tag == .timestamp) s with
  | some (found, v) =>
    if found == tag then some v
    else
      match tag, v with
      | .float, .int n =>
        if n < Nat.pow 2 63 then some (.float (Decimal.Binary64.ofInt n)) else none
      | _, _ => none
  | none => none

/-- The value of a scalar, if its text fits its tag. -/
def value? (s : Scalar) : Option Value :=
  match s.tag with
  | .str | .merge | .other _ => some (.text s.text)
  | .binary => (Base64.text? s.text).map .text
  | tag => spelled? tag s.text

end Scalar

end SchemaPress
