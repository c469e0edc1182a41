import SchemaPress.Decimal.Literal
import SchemaPress.Decimal.Notation

/-!
# Points in time

A `Timestamp` is a date and a time of day with an offset from universal time, as it is written.
`Timestamp.parse?` reads the three accepted forms: a date; a date and a time with blanks between
them; a date, the letter T and a time with an offset.  Months, days, hours, minutes and seconds have
one or two digits.  `Timestamp.text?` writes the full form, if the offset is below a day, and
`Timestamp.spaced` a form with blanks between its parts.
-/

namespace SchemaPress

/-- A date and a time of day; `offset` is in minutes east of universal time. -/
structure Timestamp where
  year : Nat
  month : Nat
  day : Nat
  hour : Nat := 0
  minute : Nat := 0
  second : Nat := 0
  nanosecond : Nat := 0
  offset : Int := 0
  deriving DecidableEq, Repr, Inhabited

namespace Timestamp

open Decimal

/-- Whether February has a day more. -/
def isLeap (year : Nat) : Bool :=
  year % 4 == 0 && (year % 100 != 0 || year % 400 == 0)

/-- The number of days of a month. -/
def daysIn (year month : Nat) : Nat :=
  match month with
  | 2 => if isLeap year then 29 else 28
  | 4 | 6 | 9 | 11 => 30
  | _ => 31

/-- A number of one or two digits, and what follows. -/
def shortNumber? : List Char → Option (Nat × List Char)
  | a :: b :: rest =>
    if !a.isDigit then none
    else if b.isDigit then some (ofDigits [a, b], rest)
    else some (ofDigits [a], b :: rest)
  | [a] => if a.isDigit then some (ofDigits [a], []) else none
  | [] => none

/-- The text after the character `c`. -/
def expect? (c : Char) : List Char → Option (List Char)
  | d :: rest => if d == c then some rest else none
  | [] => none

/-- The date at the start of a text; the year has exactly four digits. -/
def date? (cs : List Char) : Option (Timestamp × List Char) := do
  let (year, rest) := takeDigits cs
  if year.length != 4 then none
  let rest ← expect? '-' rest
  let (month, rest) ← shortNumber? rest
  let rest ← expect? '-' rest
  let (day, rest) ← shortNumber? rest
  let year := ofDigits year
  if month < 1 || 12 < month || day < 1 || daysIn year month < day then none
  some (⟨year, month, day, 0, 0, 0, 0, 0⟩, rest)

/-- A fraction of a second in nanoseconds; digits after the ninth are dropped. -/
def fraction (cs : List Char) : Nat × List Char :=
  match cs with
  | c :: rest =>
    let (ds, after) := takeDigits rest
    if (c == '.' || c == ',') && !ds.isEmpty then
      let ds := ds.take 9
      (ofDigits ds * Nat.pow 10 (9 - ds.length), after)
    else (0, cs)
  | [] => (0, cs)

/-- The time of day at the start of a text. -/
def clock? (t : Timestamp) (cs : List Char) : Option (Timestamp × List Char) := do
  let (hour, rest) ← shortNumber? cs
  let rest ← expect? ':' rest
  let (minute, rest) ← shortNumber? rest
  let rest ← expect? ':' rest
  let (second, rest) ← shortNumber? rest
  let (nanosecond, rest) := fraction rest
  if 24 ≤ hour || 60 ≤ minute || 60 ≤ second then none
  some ({ t with hour, minute, second, nanosecond }, rest)

/-- An offset that makes up the whole of a text: `Z`, or a sign and two numbers of two digits.
Twenty-four hours and sixty minutes are still read. -/
def offset? : List Char → Option Int
  | ['Z'] => some 0
  | [sign, a, b, ':', c, d] =>
    let hours := ofDigits [a, b]
    let minutes := ofDigits [c, d]
    if !([a, b, c, d].all Char.isDigit) || 24 < hours || 60 < minutes then none
    else if sign == '+' then some (hours * 60 + minutes : Nat)
    else if sign == '-' then some (-(hours * 60 + minutes : Nat))
    else none
  | _ => none

/-- Reads a whole text as a point in time. -/
def parse? (cs : List Char) : Option Timestamp := do
  let (date, rest) ← date? cs
  match rest with
  | [] => some date
  | ' ' :: rest =>
    let (t, rest) ← clock? date (rest.dropWhile (· == ' '))
    if rest.isEmpty then some t else none
  | c :: rest =>
    if c == 'T' || c == 't' then
      let (t, rest) ← clock? date rest
      let offset ← offset? rest
      some { t with offset }
    else none

/-- `n` with zeros in front of it up to `width` digits. -/
def padded (width n : Nat) : List Char :=
  let ds := natDigits n
  List.replicate (width - ds.length) '0' ++ ds

/-- The offset as it is written. -/
def offsetText (minutes : Int) : List Char :=
  if minutes == 0 then ['Z']
  else
    let n := minutes.natAbs
    (if minutes < 0 then '-' else '+') :: padded 2 (n / 60) ++ ':' :: padded 2 (n % 60)

/-- The fraction of a second as it is written, without zeros at its end. -/
def fractionText (nanosecond : Nat) : List Char :=
  if nanosecond == 0 then []
  else '.' :: ((padded 9 nanosecond).reverse.dropWhile (· == '0')).reverse

/-- The full form of a point in time, if its offset is below a day. -/
def text? (t : Timestamp) : Option String :=
  if 24 * 60 ≤ t.offset.natAbs then none
  else
    some <| String.ofList <|
      padded 4 t.year ++ '-' :: padded 2 t.month ++ '-' :: padded 2 t.day ++ 'T' :: padded 2 t.hour
        ++ ':' :: padded 2 t.minute ++ ':' :: padded 2 t.second ++ fractionText t.nanosecond
        ++ offsetText t.offset

/-- A point in time with blanks between date, time and offset; the offset stands a second time for
the name of its zone, unless that is universal time. -/
def spaced (t : Timestamp) : String :=
  let n := t.offset.natAbs
  let offset := (if t.offset < 0 then '-' else '+') :: padded 2 (n / 60) ++ padded 2 (n % 60)
  String.ofList <|
    padded 4 t.year ++ '-' :: padded 2 t.month ++ '-' :: padded 2 t.day ++ ' ' :: padded 2 t.hour
      ++ ':' :: padded 2 t.minute ++ ':' :: padded 2 t.second ++ fractionText t.nanosecond
      ++ ' ' :: offset ++ ' ' :: (if t.offset == 0 then "UTC".toList else offset)

/-- The point in universal time that lies some seconds after the start of 1970.  Years are counted
from March, so that the leap day is the last one, in cycles of 400 years. -/
def ofUnix (seconds : Nat) : Timestamp :=
  let days := seconds / 86400 + 719468
  let clock := seconds % 86400
  let dayOfCycle := days % 146097
  let yearOfCycle :=
    (dayOfCycle - dayOfCycle / 1460 + dayOfCycle / 36524 - dayOfCycle / 146096) / 365
  let dayOfYear := dayOfCycle - (365 * yearOfCycle + yearOfCycle / 4 - yearOfCycle / 100)
  let monthFromMarch := (5 * dayOfYear + 2) / 153
  let month := if monthFromMarch < 10 then monthFromMarch + 3 else monthFromMarch - 9
  { year := days / 146097 * 400 + yearOfCycle + (if month ≤ 2 then 1 else 0)
    month
    day := dayOfYear - (153 * monthFromMarch + 2) / 5 + 1
    hour := clock / 3600
    minute := clock % 3600 / 60
    second := clock % 60 }

end Timestamp

end SchemaPress
