import SchemaPress.Decimal.Shortest

/-!
# How numbers are written

Two notations are in use.  `positional` never has an exponent; `exchange?` is the notation of JSON
text, which goes over to an exponent below the float `10 ^ -6` and from `10 ^ 21` on.
-/

namespace SchemaPress.Decimal

/-- The decimal digits of a natural number. -/
def natDigits (n : Nat) : List Char :=
  Nat.toDigits 10 n

/-- The digits of an integer, with a minus sign where it is negative. -/
def intText (n : Int) : String :=
  String.ofList (if n < 0 then '-' :: natDigits n.natAbs else natDigits n.natAbs)

/-- `digits * 10 ^ exponent` without an exponent and without trailing zeros after the point. -/
def Numeral.positional (d : Numeral) : List Char :=
  let ds := natDigits d.digits
  if 0 ≤ d.exponent then ds ++ List.replicate d.exponent.toNat '0'
  else
    let places := (-d.exponent).toNat
    let ds := List.replicate (places + 1 - ds.length) '0' ++ ds
    let whole := ds.take (ds.length - places)
    let part := ((ds.drop (ds.length - places)).reverse.dropWhile (· == '0')).reverse
    if part.isEmpty then whole else whole ++ '.' :: part

/-- `digits * 10 ^ exponent` with one digit before the point and an exponent of at least one digit.
-/
def Numeral.scientific (d : Numeral) : List Char :=
  let ds := natDigits d.digits
  let shown := (ds.reverse.dropWhile (· == '0')).reverse
  let exponent := d.exponent + (ds.length : Int) - 1
  let part := shown.drop 1
  let mantissa := shown.take 1 ++ (if part.isEmpty then [] else '.' :: part)
  mantissa ++ 'e' :: (if exponent < 0 then '-' else '+') :: natDigits exponent.natAbs

namespace Binary64

/-- The shortest decimal, never with an exponent; the values that are no finite number have names.
-/
def positional : Binary64 → String
  | .nan => "NaN"
  | .infinite negative => if negative then "-Inf" else "+Inf"
  | .finite negative m e =>
    let digits := if m == 0 then ['0'] else (shortest m e).positional
    String.ofList (if negative then '-' :: digits else digits)

/-- The order of magnitudes, which on canonical forms is the order of exponents and then of
significands. -/
def smaller (m : Nat) (e : Int) : Binary64 → Bool
  | .finite _ m' e' => e < e' || (e == e' && m < m')
  | .infinite _ => true
  | .nan => false

/-- Whether the magnitude `m * 2 ^ e` is below the float `10 ^ -6`, or not below `10 ^ 21`. -/
def outOfPlain (m : Nat) (e : Int) : Bool :=
  smaller m e (ofDecimal false 1 (-6)) || !smaller m e (ofDecimal false 1 21)

/-- The text of a finite number in JSON. -/
def exchange? : Binary64 → Option String
  | .finite negative m e =>
    let digits :=
      if m == 0 then ['0']
      else if outOfPlain m e then (shortest m e).scientific
      else (shortest m e).positional
    some (String.ofList (if negative then '-' :: digits else digits))
  | _ => none

end Binary64

end SchemaPress.Decimal
