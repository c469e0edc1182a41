/-!
# Binary floating point numbers of 64 bits

`Binary64` is the set of values of a 64-bit binary float: a sign, a significand below `2 ^ 53` and
an exponent from `-1074` to `971`, besides the infinities and one value that is no number.  A finite
value is kept in its canonical form, in which the significand is at least `2 ^ 52` unless the
exponent is the least one, so equal numbers are equal values (the two zeros apart).

`Binary64.round` takes an exact fraction to the nearest value, a tie to the even significand.  All
arithmetic is exact arithmetic of natural numbers.
-/

namespace SchemaPress.Decimal

/-- A value of a 64-bit binary float.  `finite s m e` is `± m * 2 ^ e`. -/
inductive Binary64 where
  | nan
  | infinite (negative : Bool)
  | finite (negative : Bool) (significand : Nat) (exponent : Int)
  deriving DecidableEq, Repr, Inhabited

namespace Binary64

/-- The least exponent of a finite value. -/
def minExponent : Int := -1074

/-- The greatest exponent of a finite value. -/
def maxExponent : Int := 971

/-- The zero of the given sign. -/
def zero (negative : Bool) : Binary64 :=
  .finite negative 0 minExponent

/-- Whether the value is a number other than the infinities. -/
def isFinite : Binary64 → Bool
  | .finite .. => true
  | _ => false

/-- Whether the value is one of the two zeros. -/
def isZero : Binary64 → Bool
  | .finite _ m _ => m == 0
  | _ => false

/-- The quotient of `num` by `den`, rounded to the nearest integer, a tie to the even one. -/
def divNearest (num den : Nat) : Nat :=
  let q := num / den
  let twice := 2 * (num % den)
  if twice < den then q
  else if den < twice then q + 1
  else if q % 2 == 0 then q else q + 1

/-- `num / den * 2 ^ (-e)` as a fraction. -/
def scale (num den : Nat) (e : Int) : Nat × Nat :=
  if 0 ≤ e then (num, den * Nat.pow 2 e.toNat) else (num * Nat.pow 2 (-e).toNat, den)

/-- The exponent `e` with `2 ^ 52 ≤ num / den * 2 ^ (-e) < 2 ^ 53`, that is, with a significand of
53 bits. -/
def binade (num den : Nat) : Int :=
  let guess : Int := (num.log2 : Int) - (den.log2 : Int) - 52
  let (n, d) := scale num den guess
  if n < d * Nat.pow 2 52 then guess - 1 else guess

/-- The value nearest to `num / den`, with the given sign; too large a fraction is infinite. -/
def round (negative : Bool) (num den : Nat) : Binary64 :=
  if num == 0 || den == 0 then zero negative
  else
    let e := max (binade num den) minExponent
    let (n, d) := scale num den e
    let m := divNearest n d
    let (m, e) := if m == Nat.pow 2 53 then (Nat.pow 2 52, e + 1) else (m, e)
    if maxExponent < e then .infinite negative else .finite negative m e

/-- The value nearest to an integer. -/
def ofInt (n : Int) : Binary64 :=
  round (n < 0) n.natAbs 1

/-- The value nearest to `digits * 10 ^ exponent`.  Exponents so large or small that the result is
an infinity or a zero are decided without forming the power. -/
def ofDecimal (negative : Bool) (digits : Nat) (exponent : Int) : Binary64 :=
  if digits == 0 then zero negative
  else
    let size : Int := (Nat.toDigits 10 digits).length
    if 310 < exponent + size then .infinite negative
    else if exponent + size < -330 then zero negative
    else if 0 ≤ exponent then round negative (digits * Nat.pow 10 exponent.toNat) 1
    else round negative digits (Nat.pow 10 (-exponent).toNat)

end Binary64

end SchemaPress.Decimal
