import SchemaPress.Decimal.Binary64

/-!
# The shortest decimal that reads back

A positive binary float is the nearest float to every real of an interval around it.  Of the
decimals in that interval `shortest` chooses one with the fewest digits, and of those the one
nearest to the value, an exact tie going to the even digit.

`grid` tests one number of digits: the two neighbours of the value on the decimal grid of that
spacing.  If any point of a grid lies in the interval, so does one of these two.
-/

namespace SchemaPress.Decimal

/-- A positive decimal number `digits * 10 ^ exponent`. -/
structure Numeral where
  digits : Nat
  exponent : Int
  deriving DecidableEq, Repr

namespace Binary64

/-- `n * 2 ^ e` over a common denominator `2 ^ bias * 10 ^ k⁺`, compared with `d * 10 ^ k`:
the numerators of `n * 2 ^ e` and of `d * 10 ^ k` once both are integers. -/
def aligned (n : Nat) (e : Int) (d : Nat) (k : Int) : Nat × Nat :=
  let left := n * Nat.pow 2 e.toNat * Nat.pow 10 (-k).toNat
  let right := d * Nat.pow 10 k.toNat * Nat.pow 2 (-e).toNat
  (left, right)

/-- Whether `d * 10 ^ k` rounds to `m * 2 ^ e`: it lies between the midpoints towards the two
neighbouring floats, the midpoints themselves included when `m` is even. -/
def readsBack (m : Nat) (e : Int) (d : Nat) (k : Int) : Bool :=
  let narrow := m == Nat.pow 2 52 && minExponent < e
  let (lowL, lowR) :=
    if narrow then aligned (4 * m - 1) (e - 2) d k else aligned (2 * m - 1) (e - 1) d k
  let (highL, highR) := aligned (2 * m + 1) (e - 1) d k
  if m % 2 == 0 then lowL ≤ lowR && highR ≤ highL else lowL < lowR && highR < highL

/-- The integer part of `m * 2 ^ e / 10 ^ k`, and twice the fraction compared with one. -/
def onGrid (m : Nat) (e : Int) (k : Int) : Nat × Ordering :=
  let num := m * Nat.pow 2 e.toNat * Nat.pow 10 (-k).toNat
  let den := Nat.pow 10 k.toNat * Nat.pow 2 (-e).toNat
  (num / den, compare (2 * (num % den)) den)

/-- The decimal on the grid of spacing `10 ^ k` that reads back as `m * 2 ^ e`, if there is one; of
two the nearer, an exact tie going to the even one. -/
def grid (m : Nat) (e : Int) (k : Int) : Option Nat :=
  let (d, half) := onGrid m e k
  let below := readsBack m e d k && d != 0
  let above := readsBack m e (d + 1) k
  match below, above with
  | false, false => none
  | true, false => some d
  | false, true => some (d + 1)
  | true, true =>
    match half with
    | .lt => some d
    | .gt => some (d + 1)
    | .eq => if d % 2 == 0 then some d else some (d + 1)

/-- The decimal exponent of the leading digit of `m * 2 ^ e`. -/
def leading (m : Nat) (e : Int) : Int :=
  if 0 ≤ e then
    ((Nat.toDigits 10 (m * Nat.pow 2 e.toNat)).length : Int) - 1
  else
    -- with enough powers of ten in front the quotient is at least one
    let shift := (-e).toNat
    ((Nat.toDigits 10 (m * Nat.pow 10 shift / Nat.pow 2 (-e).toNat)).length : Int) - 1 - shift

/-- Tries grids of growing fineness; `tries` bounds the number of digits. -/
def search (m : Nat) (e : Int) (k : Int) : (tries : Nat) → Numeral
  | 0 => ⟨m, 0⟩
  | tries + 1 =>
    match grid m e k with
    | some d => ⟨d, k⟩
    | none => search m e (k - 1) tries

/-- The shortest decimal that reads back as `m * 2 ^ e`, for a positive `m`.  Seventeen digits
always suffice. -/
def shortest (m : Nat) (e : Int) : Numeral :=
  search m e (leading m e) 18

end Binary64

end SchemaPress.Decimal
