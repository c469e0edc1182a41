import SchemaPress.Json.Reader
import SchemaPress.Node.Entries
import SchemaPress.Value.Exchange
import SchemaPress.Yaml.Document

/-!
# Settings

Settings are named values, which may be nested.  `Settings.parse?` reads them from JSON or YAML.  In
YAML a key is what its text denotes, the last of equal keys counts, and `<<` merges other mappings
in.  Different keys may have the same name, such as `1` and `1.0`; which of them counts is left to
an `Order`, in which `Settings.arrange` visits the fields of every map.  `Settings.merge` lays
settings over others.
-/

namespace SchemaPress

/-- Named values. -/
abbrev Settings := List (String × Value)

namespace Settings

/-! ### Keys -/

/-- The shortest decimal of a float, with an exponent of at least two digits where it is far from
one. -/
def floatName (x : Decimal.Binary64) : String :=
  match x with
  | .finite negative m e =>
    let d := Decimal.Binary64.shortest m e
    let exponent := d.exponent + ((Decimal.natDigits d.digits).length : Int) - 1
    if m == 0 || (-4 ≤ exponent && exponent < 6) then x.positional
    else
      let text := d.scientific
      let power := (text.dropWhile (· != 'e')).drop 2
      let text := if power.length < 2 then text.take (text.length - 1) ++ '0' :: power else text
      String.ofList (if negative then '-' :: text else text)
  | x => x.positional

/-- The name of a value as a key; lists and maps have none. -/
def nameOf? : Value → Option String
  | .null => some "<nil>"
  | .bool b => some (if b then "true" else "false")
  | .int n => some (Decimal.intText n)
  | .float x => some (floatName x)
  | .text s => some s
  | .time t => some t.spaced
  | .list _ | .map _ => none

/-- Whether two values are the same key.  A value that is no number is not even the same as itself,
and neither is a point in time with an offset. -/
def sameKey : Value → Value → Bool
  | .null, .null => true
  | .bool b, .bool c => b == c
  | .int m, .int n => m == n
  | .float x, .float y => x != .nan && (x == y || x.isZero && y.isZero)
  | .text s, .text t => s == t
  | .time s, .time t => s == t && s.offset == 0
  | _, _ => false

/-- Whether two keys are written in the same way. -/
def sameSpelling : Node → Node → Bool
  | .scalar s, .scalar t => s.text == t.text
  | .alias a, .alias b => a == b
  | .sequence _, .sequence _ => true
  | .mapping _, .mapping _ => true
  | _, _ => false

/-- Whether no key is written twice. -/
def distinctKeys : List (Node × Node) → Bool
  | [] => true
  | p :: rest => rest.all (fun q => !sameSpelling p.1 q.1) && distinctKeys rest

/-- Whether a key asks for mappings to be merged in. -/
def isMerge : Node → Bool
  | .scalar s => s.tag == .merge && s.text == "<<"
  | _ => false

/-- Whether a key is a text as it is written. -/
def isTextKey (anchors : Anchors) (key : Node) : Bool :=
  match key.resolve? anchors with
  | some (.scalar s) => s.tag == .str || s.tag == .merge
  | _ => false

/-- The key that a scalar is.  Where all keys are `texts`, it is the text as it is written, and a
null is no key; otherwise it is the value that is meant.  The outer `none` is a fault. -/
def scalarKey? (texts : Bool) (s : Scalar) : Option (Option Value) := do
  let value ← s.value?
  if !texts then return some value
  match value, s.tag with
  | .null, _ => return none
  | value, .binary => return some value
  | _, _ => return some (.text s.text)

/-- Puts a value under a key, in place of what is there. -/
def put (entries : List (Value × Value)) (key value : Value) : List (Value × Value) :=
  if entries.any fun e => sameKey e.1 key then
    entries.map fun e => if sameKey e.1 key then (key, value) else e
  else entries ++ [(key, value)]

/-! ### Reading YAML -/

/-- The number of nodes that have been read, and of those among them that were read through an
alias. -/
structure Effort where
  nodes : Nat := 0
  repeated : Nat := 0
  deriving Repr, Inhabited

/-- Whether too many nodes are read through aliases: more than 99 of 100 up to 400000 nodes, more
than 1 of 10 from 4000000 nodes on, and a share in proportion between them. -/
def Effort.isExcessive (e : Effort) : Bool :=
  e.repeated > 100 && e.nodes > 1000 &&
    if e.nodes ≤ 400000 then 99 * e.nodes < 100 * e.repeated
    else if 4000000 ≤ e.nodes then e.nodes < 10 * e.repeated
    else e.nodes * (99 * 3600000 - 89 * (e.nodes - 400000)) < e.repeated * 100 * 3600000

/-- A computation that reads a part of a document, or finds a fault. -/
abbrev Reading := StateT Effort Option

/-- Counts a node, which is read through an alias if `repeated` is set. -/
def countNode (repeated : Bool) : Reading Unit := do
  let e ← get
  let e : Effort := ⟨e.nodes + 1, if repeated then e.repeated + 1 else e.repeated⟩
  if e.isExcessive then failure
  set e

/-- The key that a node is, if it is one. -/
def readKey (anchors : Anchors) (repeated texts : Bool) (key : Node) : Reading (Option Value) := do
  countNode repeated
  match key with
  | .scalar s => liftM (scalarKey? texts s)
  | .alias anchor =>
    countNode true
    match anchors[anchor]? with
    | some (.scalar s) => liftM (scalarKey? texts s)
    | _ => failure
  | _ => failure

/-- The entries of a mapping that is being read.  If it is merged into another one, `known` has the
keys that are not to be read again. -/
structure Entries where
  found : List (Value × Value) := []
  known : Option (List Value) := none

/-- Whether a key is not to be read again. -/
def Entries.knows (entries : Entries) (key : Value) : Bool :=
  (entries.known.getD []).any (sameKey key)

/-- Puts a value under a key, which is known from then on. -/
def Entries.put (entries : Entries) (key value : Value) : Entries :=
  ⟨Settings.put entries.found key value, entries.known.map (key :: ·)⟩

mutual

/-- Reads a value, which may have at most `levels` levels. -/
def readValue (anchors : Anchors) : (levels : Nat) → (repeated : Bool) → Node → Reading Value
  | 0, _, _ => failure
  | levels + 1, repeated, node => do
    countNode repeated
    match node with
    | .scalar s => liftM s.value?
    | .sequence items => return .list (← items.mapM (readValue anchors levels repeated))
    | .mapping children =>
      let texts := (Node.pairs children).all fun p => isTextKey anchors p.1
      let entries ← readMapping anchors levels repeated texts children {}
      return .map (← entries.found.mapM fun e => do return (← liftM (nameOf? e.1), e.2))
    | .alias anchor =>
      match anchors[anchor]? with
      | some node => readValue anchors levels true node
      | none => failure
    | .document _ => failure

/-- Reads the entries of a mapping: first its own, then those that are merged in. -/
def readMapping (anchors : Anchors) : (levels : Nat) → (repeated texts : Bool) → List Node →
    Entries → Reading Entries
  | 0, _, _, _, _ => failure
  | levels + 1, repeated, texts, children, entries => do
    let pairs := Node.pairs children
    if !distinctKeys pairs then failure
    let entries ← (pairs.filter fun p => !isMerge p.1).foldlM (fun entries p => do
      match ← readKey anchors repeated texts p.1 with
      | none => return entries
      | some key =>
        if entries.knows key then return entries
        return entries.put key (← readValue anchors levels repeated p.2)) entries
    match pairs.find? fun p => isMerge p.1 with
    | none => return entries
    | some (_, source) =>
      -- What is merged in gives way to the keys of the mapping itself, as values.
      let known ← match entries.known with
        | some known => pure known
        | none => pairs.mapM fun p => readValue anchors levels repeated p.1
      let sources := match source with
        | .sequence items => items
        | source => [source]
      let merged ← sources.foldlM (readSource anchors levels repeated texts)
        ⟨entries.found, some known⟩
      return ⟨merged.found, entries.known.bind fun _ => merged.known⟩

/-- Reads the entries of a mapping that is merged in. -/
def readSource (anchors : Anchors) : (levels : Nat) → (repeated texts : Bool) → Entries → Node →
    Reading Entries
  | 0, _, _, _, _ => failure
  | levels + 1, repeated, texts, entries, source => do
    countNode repeated
    match source with
    | .mapping children => readMapping anchors levels repeated texts children entries
    | .alias anchor =>
      match anchors[anchor]? with
      | some (.mapping children) =>
        countNode true
        readMapping anchors levels true texts children entries
      | _ => failure
    | _ => failure

end

/-- The depth to which settings are followed. -/
def maxLevels : Nat := 10000

/-- Reads the settings of a node; their names are texts as they are written. -/
def readRoot (anchors : Anchors) (node : Node) : Reading Settings := do
  countNode false
  match node with
  | .mapping children =>
    let entries ← readMapping anchors maxLevels false true children {}
    entries.found.mapM fun e => do return (← liftM (nameOf? e.1), e.2)
  | .scalar s => if s.value?.any (· matches .null) then return [] else failure
  | _ => failure

/-- The settings of a tree.  An empty document has none. -/
def ofTree? (tree : Tree) : Option Settings :=
  match tree.root with
  | .document [] => some []
  | .document (node :: _) => (readRoot tree.anchors node).run' { nodes := 1 }
  | node => (readRoot tree.anchors node).run' {}

/-- Reads settings: JSON if the bytes are valid JSON, YAML otherwise.  Names may be repeated where
different keys have the same name. -/
def parse? (raw : ByteArray) : Option Settings :=
  let bytes := raw.toList
  match Json.parse? (Text.Utf8.decode bytes) with
  | some .null => some []
  | some (.object fields) => Json.fieldValues? fields
  | some _ => none
  | none => (Yaml.parse? bytes).bind ofTree?

/-! ### Which field counts -/

/-- The order in which the fields of each map are visited.  A map is named by the way to it: the
numbers of the fields and items that it lies in, the innermost first. -/
structure Order where
  visit : List Nat → Settings → Settings
  perm : ∀ way fields, (visit way fields).Perm fields

/-- The order in which fields are written. -/
def Order.written : Order where
  visit _ fields := fields
  perm _ _ := .rfl

/-- Keeps the first of the fields with the same name. -/
def keepFirst : Settings → Settings
  | [] => []
  | f :: rest => f :: (keepFirst rest).filter fun g => g.1 != f.1

mutual

/-- A value with the fields of its maps as they are visited. -/
def arrangeValue (order : Order) (way : List Nat) : Value → Value
  | .list items => .list (arrangeItems order way 0 items)
  | .map fields => .map (keepFirst (order.visit way (arrangeFields order way 0 fields)))
  | value => value

/-- Items with the fields of their maps as they are visited; the first one has the number `n`. -/
def arrangeItems (order : Order) (way : List Nat) (n : Nat) : List Value → List Value
  | [] => []
  | v :: rest => arrangeValue order (n :: way) v :: arrangeItems order way (n + 1) rest

/-- Fields with those of their maps as they are visited; the first one has the number `n`. -/
def arrangeFields (order : Order) (way : List Nat) (n : Nat) : Settings → Settings
  | [] => []
  | (name, v) :: rest =>
    (name, arrangeValue order (n :: way) v) :: arrangeFields order way (n + 1) rest

end

/-- Settings with distinct names, as they are visited. -/
def arrange (order : Order) (fields : Settings) : Settings :=
  keepFirst (order.visit [] (arrangeFields order [] 0 fields))

/-! ### Merging -/

/-- Puts a field in place of the one with its name, or at the end. -/
def set {α : Type} (fields : List (String × α)) (name : String) (value : α) : List (String × α) :=
  if fields.any (·.1 == name) then fields.map fun f => if f.1 == name then (name, value) else f
  else fields ++ [(name, value)]

mutual

/-- A value laid over another: only maps are merged. -/
def mergeValue (old : Option Value) : Value → Value
  | .map fields =>
    match old with
    | some (.map below) => .map (merge below fields)
    | _ => .map fields
  | value => value

/-- Settings laid over others. -/
def merge (below : Settings) : Settings → Settings
  | [] => below
  | (name, value) :: rest => merge (set below name (mergeValue (below.lookup name) value)) rest

end

end Settings

end SchemaPress
