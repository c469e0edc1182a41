import SchemaPress.Decimal.Notation
import SchemaPress.Text.Casing
import SchemaPress.Text.Words

/-!
# Log events

An `Event` has a level, named values in order and a message.  A threshold is a number: an event is
kept if the number of its level is not below it.
-/

namespace SchemaPress.Log

/-- The levels of events. -/
inductive Level where
  | trace
  | debug
  | info
  | warn
  | error
  deriving DecidableEq, Repr, Inhabited

/-- The name of a level. -/
def Level.name : Level → String
  | .trace => "trace"
  | .debug => "debug"
  | .info => "info"
  | .warn => "warn"
  | .error => "error"

/-- The number of a level. -/
def Level.rank : Level → Int
  | .trace => -1
  | .debug => 0
  | .info => 1
  | .warn => 2
  | .error => 3

/-- The value of a field. -/
inductive FieldValue where
  | text (s : String)
  | int (n : Int)
  | flag (b : Bool)
  | texts (items : List String)
  deriving DecidableEq, Repr, Inhabited

/-- Something that happened: named values in order, and a message. -/
structure Event where
  level : Level
  fields : List (String × FieldValue) := []
  message : String
  deriving DecidableEq, Repr, Inhabited

/-! ### Thresholds -/

/-- The names of the thresholds. -/
def thresholds : List (String × Int) :=
  [("trace", -1), ("debug", 0), ("info", 1), ("warn", 2), ("error", 3), ("fatal", 4), ("panic", 5),
    ("disabled", 7)]

/-- The threshold of a name that is none of the known ones: a number of eight bits. -/
def numericThreshold? (cs : List Char) : Option Int :=
  let (digits, negative) :=
    match cs with
    | '-' :: rest => (rest, true)
    | '+' :: rest => (rest, false)
    | rest => (rest, false)
  if digits.isEmpty || !digits.all Char.isDigit then none
  else
    let n : Nat := digits.foldl (fun n c => n * 10 + (c.toNat - 48)) 0
    let n : Int := if negative then -(n : Int) else n
    if -128 ≤ n && n ≤ 127 then some n else none

/-- The threshold of a name, in any case and with blanks around it; that of `info` if there is none.
-/
def threshold (name : String) : Int :=
  let name := Text.lower (Text.trim name)
  match thresholds.find? fun t => Text.sameFold t.1 name with
  | some t => t.2
  | none => (numericThreshold? name.toList).getD Level.info.rank

/-- Whether an event is kept. -/
def Event.isKept (threshold : Int) (e : Event) : Bool :=
  threshold ≤ e.level.rank && Level.trace.rank ≤ e.level.rank

end SchemaPress.Log
