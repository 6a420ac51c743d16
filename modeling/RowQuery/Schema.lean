import RowQuery.Log
import RowQuery.Value

/-!
# Schemas

A schema catalogues the properties of a type of rows: their names, their types and how to read
them from a row. Names are looked up without regard to case. A property registered again under a
name takes the place of the first one.

## Main definitions

* `Property`, `Schema`.
* `Schema.register`: one more property.
* `Schema.find?`, `Schema.property?`, `Schema.read`: look-up by name and by place.
-/

namespace RowQuery

/-- A property of the rows: its name, its type, and how to read it. -/
structure Property (ρ : Type) where
  name : String
  type : DataType
  get : ρ → Value

/-- The properties of a type of rows, in order. -/
structure Schema (ρ : Type) where
  name : String
  properties : List (Property ρ)

namespace Schema

variable {ρ : Type}

/-- A schema without properties. -/
def empty (name : String) : Schema ρ := ⟨name, []⟩

/-- The properties with one more: in the place of the first one of its name, or at the end. -/
def put (p : Property ρ) : List (Property ρ) → List (Property ρ)
  | [] => [p]
  | q :: rest => if Text.sameName q.name p.name then p :: rest else q :: put p rest

/-- The schema with one more property. -/
def register (s : Schema ρ) (p : Property ρ) : Schema ρ :=
  { s with properties := put p s.properties }

/-- The place of the first property with a name, and the property. -/
def findFrom (name : String) : Nat → List (Property ρ) → Option (Nat × Property ρ)
  | _, [] => none
  | i, p :: rest => if Text.sameName p.name name then some (i, p) else findFrom name (i + 1) rest

/-- The place of the property with a name, without regard to case, and the property. -/
def find? (s : Schema ρ) (name : String) : Option (Nat × Property ρ) :=
  findFrom name 0 s.properties

/-- The property at a place. -/
def property? (s : Schema ρ) (id : Nat) : Option (Property ρ) :=
  s.properties[id]?

/-- What the property at a place reads from a row; where there is none, nothing. -/
def read (s : Schema ρ) (id : Nat) (row : ρ) : Value :=
  match s.property? id with
  | some p => p.get row
  | none => .null

/-- The warning that a registration replaces a property. -/
def replacement? (s : Schema ρ) (p : Property ρ) : Option Log.Record :=
  if (s.find? p.name).isSome then
    some ⟨.warn, Log.schemaTarget, "schema " ++ s.name ++ ": property '" ++ p.name
      ++ "' registered twice, replacing"⟩
  else none

/-- The schema of a list of registrations, and the warnings on the way. -/
def build (name : String) (ps : List (Property ρ)) : Schema ρ × List Log.Record :=
  ps.foldl (fun (s, log) p => (s.register p, log ++ (s.replacement? p).toList)) (empty name, [])

/-- The name and the properties, without how they are read. -/
def inspect (s : Schema ρ) : String :=
  let properties := s.properties.map fun p =>
    "Property \x7b name: " ++ Text.quote p.name ++ ", ty: " ++ p.type.inspect ++ " \x7d"
  "Schema \x7b name: " ++ Text.quote s.name ++ ", properties: ["
    ++ ", ".intercalate properties ++ "] \x7d"

end Schema

end RowQuery
