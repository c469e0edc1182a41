import SchemaPress.Decimal.Binary64
import SchemaPress.Text.Casing

/-!
# Reading decimal literals

A literal is an optional sign, digits with at most one point and at least one digit, and an optional
exponent.  `Literal.parse?` reads the whole text or nothing; `Binary64.parse?` also knows the names
of the values that are no finite number.
-/

namespace SchemaPress.Decimal

/-- A literal `± digits * 10 ^ exponent`. -/
structure Literal where
  negative : Bool
  digits : Nat
  exponent : Int
  deriving DecidableEq, Repr

/-- The number that a sequence of decimal digits denotes. -/
def ofDigits (cs : List Char) : Nat :=
  cs.foldl (fun n c => n * 10 + (c.toNat - 48)) 0

/-- An optional sign: whether it is a minus, and what follows. -/
def takeSign : List Char → Bool × List Char
  | '-' :: rest => (true, rest)
  | '+' :: rest => (false, rest)
  | rest => (false, rest)

/-- The longest run of decimal digits, and what follows. -/
def takeDigits (cs : List Char) : List Char × List Char :=
  (cs.takeWhile Char.isDigit, cs.dropWhile Char.isDigit)

/-- The exponent part that makes up the whole of `cs`; nothing at all is the exponent zero. -/
def exponent? : List Char → Option Int
  | [] => some 0
  | c :: rest =>
    if c == 'e' || c == 'E' then
      let (negative, rest) := takeSign rest
      let (ds, rest) := takeDigits rest
      if ds.isEmpty || !rest.isEmpty then none
      else
        -- an exponent of more than five digits is read by the first five
        let n := ofDigits (ds.dropWhile (· == '0') |>.take 5)
        some (if negative then -(n : Int) else n)
    else none

/-- Reads a whole text as a literal. -/
def Literal.parse? (cs : List Char) : Option Literal :=
  let (negative, rest) := takeSign cs
  let (whole, rest) := takeDigits rest
  let (part, rest) :=
    match rest with
    | '.' :: rest => takeDigits rest
    | rest => ([], rest)
  if whole.isEmpty && part.isEmpty then none
  else
    (exponent? rest).map fun e => ⟨negative, ofDigits (whole ++ part), e - part.length⟩

/-- The float nearest to a literal. -/
def Literal.value (l : Literal) : Binary64 :=
  Binary64.ofDecimal l.negative l.digits l.exponent

/-- Reads a text as a float: a literal (an infinity if it is too large) or the name of a value that
is no finite number, in any case. -/
def Binary64.parse? (s : String) : Option Binary64 :=
  let (negative, name) := takeSign s.toList
  match Text.lower (String.ofList name) with
  | "inf" | "infinity" => some (.infinite negative)
  | "nan" => if name.length == s.length then some .nan else none
  | _ => (Literal.parse? s.toList).map Literal.value

end SchemaPress.Decimal
