import Std.Data.HashMap
import SchemaPress.Model.Property

/-!
# Ordered collections of properties

`Properties` keeps properties in the order in which their names were first set.  An index leads from
a name to its place, so a property is found without a search.
-/

namespace SchemaPress

/-- Properties in order, their names in the same order, and the place of each name. -/
structure Properties where
  names : Array String := #[]
  items : Array Property := #[]
  index : Std.HashMap String Nat := {}
  deriving Inhabited

namespace Properties

/-- The collection without properties. -/
def empty : Properties := {}

/-- Sets a property: in the place of an earlier one of its name, or at the end. -/
def set (ps : Properties) (p : Property) : Properties :=
  match ps.index[p.name]? with
  | some place => { ps with items := ps.items.setIfInBounds place p }
  | none =>
    { names := ps.names.push p.name
      items := ps.items.push p
      index := ps.index.insert p.name ps.items.size }

/-- Sets properties one after the other. -/
def ofList (ps : List Property) : Properties :=
  ps.foldl set empty

/-- The property of a name. -/
def get? (ps : Properties) (name : String) : Option Property :=
  ps.index[name]?.bind fun place => ps.items[place]?

/-- The number of properties. -/
def size (ps : Properties) : Nat :=
  ps.items.size

/-- The properties in order. -/
def toList (ps : Properties) : List Property :=
  ps.items.toList

/-- Visits the items of a list in order until a visit says that it was the last.  A visit takes what
has been gathered so far and a property, and gives what is gathered then and whether to go on. -/
def visitList {σ : Type} (visit : σ → Property → σ × Bool) (gathered : σ) : List Property → σ
  | [] => gathered
  | p :: rest =>
    match visit gathered p with
    | (gathered, true) => visitList visit gathered rest
    | (gathered, false) => gathered

/-- Visits the properties in order until a visit says that it was the last. -/
def each {σ : Type} (ps : Properties) (visit : σ → Property → σ × Bool) (start : σ) : σ :=
  visitList visit start ps.toList

end Properties

end SchemaPress
