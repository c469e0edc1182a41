import SchemaPress.Json.Printer
import SchemaPress.Log.Event
import SchemaPress.Text.Quoted
import SchemaPress.Value.Timestamp

/-!
# What a logger writes

`Event.line` writes an event as a JSON object: its level, its fields, the time if it is recorded,
and its message if there is one.  `Console.line` writes it for a terminal, with colours: the time of
day, the level, the message, and the fields in the order of their names, a field named `error`
first.  `output` writes all events that reach a level in one of these forms.
-/

namespace SchemaPress.Log

/-! ### Lines of JSON -/

/-- A character of a text in a line: only quotes, backslashes and control characters are escaped. -/
def escapedChar (c : Char) : List Char :=
  if c == '"' || c == '\\' then ['\\', c]
  else if c == '\n' then ['\\', 'n']
  else if c == '\r' then ['\\', 'r']
  else if c == '\t' then ['\\', 't']
  else if c == '\x08' then ['\\', 'b']
  else if c == '\x0c' then ['\\', 'f']
  else if c.toNat < 0x20 || c.toNat == 0x7F then '\\' :: 'u' :: Text.hex 4 c.toNat
  else [c]

/-- A text in a line. -/
def lineText (s : String) : String :=
  String.ofList ('"' :: s.toList.flatMap escapedChar ++ ['"'])

/-- The value of a field in a line. -/
def FieldValue.lineText : FieldValue → String
  | .text s => Log.lineText s
  | .int n => Decimal.intText n
  | .flag b => if b then "true" else "false"
  | .texts items => "[" ++ ",".intercalate (items.map Log.lineText) ++ "]"

/-- The time in a line, to the second. -/
def timeText (t : Timestamp) : String :=
  ({ t with nanosecond := 0 }.text?).getD ""

/-- An event as a line of JSON, without its end. -/
def Event.line (time : Option Timestamp) (e : Event) : String :=
  let fields := e.fields.map fun f => (f.1, f.2.lineText)
  let time := time.toList.map fun t => ("time", Log.lineText (timeText t))
  let message := if e.message.isEmpty then [] else [("message", Log.lineText e.message)]
  let all := ("level", Log.lineText e.level.name) :: fields ++ time ++ message
  r"{" ++ ",".intercalate (all.map fun f => Log.lineText f.1 ++ ":" ++ f.2) ++ r"}"

/-! ### Lines for a terminal -/

namespace Console

/-- A text in a colour; zero is no colour. -/
def coloured (colour : Nat) (s : String) : String :=
  if colour == 0 then s
  else "\x1b[" ++ Decimal.intText colour ++ "m" ++ s ++ "\x1b[0m"

/-- The short name and the colour of a level. -/
def levelMark : Level → String × Nat
  | .trace => ("TRC", 34)
  | .debug => ("DBG", 0)
  | .info => ("INF", 32)
  | .warn => ("WRN", 33)
  | .error => ("ERR", 31)

/-- The time of day on a twelve-hour clock. -/
def clock (t : Timestamp) : String :=
  let hour := if t.hour % 12 == 0 then 12 else t.hour % 12
  Decimal.intText hour ++ ":" ++ String.ofList (Timestamp.padded 2 t.minute)
    ++ (if t.hour < 12 then "AM" else "PM")

/-- Whether a text has to stand in quotes. -/
def needsQuotes (s : String) : Bool :=
  s.toList.any fun c => c.toNat < 0x20 || 0x7E < c.toNat || c == ' ' || c == '\\' || c == '"'

/-- The value of a field. -/
def valueText : FieldValue → String
  | .text s => if needsQuotes s then Text.quoted s else s
  | .int n => Decimal.intText n
  | .flag b => if b then "true" else "false"
  | .texts items => (Json.array (items.map .string)).compact false

/-- The names that have a place of their own in the line. -/
def placed : List String := ["time", "level", "caller", "message"]

/-- The fields in the order of their names, of each name the last, and `error` first. -/
def arrange (fields : List (String × FieldValue)) : List (String × FieldValue) :=
  let fields := fields.filter fun f => !placed.contains f.1
  let latest := fields.reverse.foldl
    (fun kept f => if kept.any fun k => k.1 == f.1 then kept else f :: kept) []
  let sorted := latest.mergeSort fun a b => decide (a.1 ≤ b.1)
  sorted.filter (fun f => f.1 == "error") ++ sorted.filter fun f => f.1 != "error"

/-- A field with its name. -/
def fieldText (field : String × FieldValue) : String :=
  let value := valueText field.2
  coloured 36 (field.1 ++ "=")
    ++ (if field.1 == "error" then coloured 31 (coloured 1 value) else value)

/-- An event as a line for the terminal, without its end. -/
def line (time : Timestamp) (e : Event) : String :=
  let (mark, colour) := levelMark e.level
  let message :=
    if e.message.isEmpty then []
    else [if Level.info.rank ≤ e.level.rank then coloured 1 e.message else e.message]
  " ".intercalate <|
    [coloured 90 (clock time), coloured colour mark] ++ message ++ (arrange e.fields).map fieldText

end Console

/-! ### All lines -/

/-- The lines of the events that reach `level`, in the form for a terminal if `pretty`, and as JSON
otherwise. -/
def output (level : String) (pretty : Bool) (time : Timestamp) (events : List Event) : String :=
  let write := fun (e : Event) =>
    (if pretty then Console.line time e else e.line (some time)) ++ "\n"
  String.join ((events.filter (·.isKept (threshold level))).map write)

end SchemaPress.Log
