import RowQuery.Text.Caseless
import RowQuery.Text.Integer
import RowQuery.Text.Quoted

/-!
# Declared types

A property is declared with the kind of its scalars and a discipline: a plain value, a value that
may be absent, a reference that may be absent, or a sequence of values.

## Main definitions

* `EnumDef`: the names and numbers of an enumeration.
* `Kind`, `Discipline`, `DataType`.
* `Absence`: how absence shows in values of a type.

## Main results

* `EnumDef.defines_iff`: a number is defined exactly when a variant has it.
* `DataType.mayBeAbsent_iff`: absence is allowed exactly where the type says how it shows.
-/

namespace RowQuery

/-- An enumeration: its name and its variants with their numbers, in order. -/
structure EnumDef where
  name : String
  variants : List (String × Int64)
  deriving DecidableEq, Repr

namespace EnumDef

/-- The name of the first variant with a number. -/
def nameOf? (e : EnumDef) (number : Int64) : Option String :=
  (e.variants.find? fun v => v.2 == number).map Prod.fst

/-- The number of the first variant with a name, without regard to case. -/
def numberOf? (e : EnumDef) (name : String) : Option Int64 :=
  (e.variants.find? fun v => Text.sameName v.1 name).map Prod.snd

/-- Some variant has the number. -/
def defines (e : EnumDef) (number : Int64) : Bool :=
  (e.nameOf? number).isSome

theorem defines_iff {e : EnumDef} {n : Int64} :
    e.defines n = true ↔ ∃ v ∈ e.variants, v.2 = n := by
  simp [defines, nameOf?]

end EnumDef

/-- The kind of a scalar. -/
inductive Kind where
  | bool
  | int
  | float
  | text
  | instant
  | enum (e : EnumDef)
  deriving DecidableEq, Repr

/-- How a declared type handles absence and multiplicity. -/
inductive Discipline where
  /-- Always present. -/
  | value
  /-- A value with a flag that tells whether it is there. -/
  | nullable
  /-- A reference that may lead nowhere. -/
  | reference
  /-- A sequence of values that are always present. -/
  | array
  deriving DecidableEq, Repr

/-- A declared type: of a property, of a constant, or of a value to be read. -/
structure DataType where
  discipline : Discipline
  kind : Kind
  deriving DecidableEq, Repr

/-- How absence shows in values of a type. -/
inductive Absence where
  /-- There is none. -/
  | never
  /-- By a flag beside the value. -/
  | flagged
  /-- By a reference that leads nowhere. -/
  | reference
  deriving DecidableEq, Repr

namespace Kind

/-- The name of the kind; an enumeration has its own. -/
def display : Kind → String
  | bool => "bool"
  | int => "int"
  | float => "float"
  | text => "text"
  | instant => "datetime"
  | enum e => e.name

end Kind

namespace DataType

/-- The type of conditions. -/
def bool : DataType := ⟨.value, .bool⟩

/-- The type without its flag of presence. -/
def present (t : DataType) : DataType :=
  if t.discipline = .nullable then ⟨.value, t.kind⟩ else t

/-- A sequence of the type's kind. -/
def sequence (t : DataType) : DataType :=
  ⟨.array, t.kind⟩

/-- How absence shows in values of the type. -/
def absence (t : DataType) : Absence :=
  match t.discipline with
  | .value => .never
  | .nullable => .flagged
  | .reference | .array => .reference

/-- Values of the type may be absent. -/
def mayBeAbsent (t : DataType) : Bool :=
  t.discipline != .value

/-- The type is a sequence. -/
def isSequence (t : DataType) : Bool :=
  t.discipline == .array

/-- The kind, marked when it is optional or a sequence. -/
def display (t : DataType) : String :=
  match t.discipline with
  | .value | .reference => t.kind.display
  | .nullable => t.kind.display ++ "?"
  | .array => t.kind.display ++ "[]"

theorem mayBeAbsent_iff {t : DataType} :
    t.mayBeAbsent = true ↔ t.absence ≠ .never := by
  obtain ⟨d, k⟩ := t
  cases d <;> simp [mayBeAbsent, absence]

theorem present_kind (t : DataType) : t.present.kind = t.kind := by
  unfold present
  split <;> rfl

end DataType

/-! ### Inspection -/

/-- The variants of an enumeration, with everything in them. -/
def EnumDef.inspect (e : EnumDef) : String :=
  let variants := e.variants.map fun (name, d) =>
    "(" ++ Text.quote name ++ ", " ++ Text.showInt d.toInt ++ ")"
  "EnumDef \x7b name: " ++ Text.quote e.name ++ ", variants: [" ++ ", ".intercalate variants
    ++ "] \x7d"

/-- The kind by constructor. -/
def Kind.inspect : Kind → String
  | .bool => "Bool"
  | .int => "Int"
  | .float => "Float"
  | .text => "Text"
  | .instant => "DateTime"
  | .enum e => "Enum(" ++ e.inspect ++ ")"

/-- The type by constructor. -/
def DataType.inspect (t : DataType) : String :=
  let discipline := match t.discipline with
    | .value => "Value"
    | .nullable => "Nullable"
    | .reference => "Reference"
    | .array => "Array"
  discipline ++ "(" ++ t.kind.inspect ++ ")"

end RowQuery
