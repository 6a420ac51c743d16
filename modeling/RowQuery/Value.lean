import RowQuery.Binary64.Layout
import RowQuery.DataType
import RowQuery.Instant.Rfc3339
import RowQuery.Text.Truth

/-!
# Values

What a property, a constant or an expression yields: an absent value, a scalar of some kind, or a
list of values.

## Main definitions

* `EnumValue`: a number of an enumeration, defined or not.
* `Value`: the values.
* `Value.same`: sameness of values, in which a NaN differs from itself and the zeros are one.
* `Value.display`, `Value.inspect`: the two texts of a value.
-/

namespace RowQuery

/-- A number read as a variant of an enumeration. The number need not be defined there. -/
structure EnumValue where
  definition : EnumDef
  number : Int64
  deriving DecidableEq, Repr

namespace EnumValue

/-- The variant's name, if the number is defined. -/
def name? (e : EnumValue) : Option String :=
  e.definition.nameOf? e.number

/-- The variant behind the enumeration's name; the number in parentheses if it has no variant. -/
def display (e : EnumValue) : String :=
  match e.name? with
  | some variant => e.definition.name ++ "::" ++ variant
  | none => e.definition.name ++ "(" ++ Text.showInt e.number.toInt ++ ")"

/-- The enumeration and the number. -/
def inspect (e : EnumValue) : String :=
  "EnumValue \x7b def: " ++ e.definition.inspect ++ ", discriminant: "
    ++ Text.showInt e.number.toInt ++ " \x7d"

end EnumValue

/-- A value: absent, a scalar, or a list. -/
inductive Value where
  | null
  | bool (b : Bool)
  | int (n : Int64)
  | float (x : Binary64)
  | text (s : String)
  | instant (t : Instant)
  | enum (e : EnumValue)
  | list (items : List Value)
  deriving Repr

namespace Value

/-- The value is absent. -/
def isNull : Value → Bool
  | null => true
  | _ => false

/-- The value is the condition `true`. -/
def isTrue : Value → Bool
  | bool true => true
  | _ => false

/-- The truth value, if it is one. -/
def asBool? : Value → Option Bool
  | bool b => some b
  | _ => none

/-- The text, if it is one. -/
def asText? : Value → Option String
  | text s => some s
  | _ => none

/-- The items, if it is a list. -/
def asList? : Value → Option (List Value)
  | list items => some items
  | _ => none

mutual

/-- The two values are built alike from equal parts; numbers of floating point are equal as
numbers, so a NaN differs from itself and the two zeros are one. -/
def same : Value → Value → Bool
  | null, null => true
  | bool a, bool b => a == b
  | int a, int b => a == b
  | float a, float b => a.compare? b == some .eq
  | text a, text b => a == b
  | instant a, instant b => a == b
  | enum a, enum b => a == b
  | list a, list b => sameItems a b
  | _, _ => false

/-- The two lists agree item by item. -/
def sameItems : List Value → List Value → Bool
  | [], [] => true
  | a :: as, b :: bs => same a b && sameItems as bs
  | _, _ => false

end

/-! ### Text -/

/-- Numbers in expressions are positional from a ten-thousandth up to ten to the sixteenth; of two
equally near digit strings the upper one is written, and a positive power of ten has no sign. -/
def numberLayout : Layout := ⟨-4, 16, .upper, false⟩

mutual

/-- The value as it stands in an expression. -/
def display : Value → String
  | null => "null"
  | bool b => Text.showBool b
  | int n => Text.showInt n.toInt
  | float x => String.ofList (numberLayout.write x)
  | text s => Text.quote s
  | instant t => "\"" ++ t.display ++ "\""
  | enum e => e.display
  | list items => "[" ++ ", ".intercalate (displayItems items) ++ "]"

/-- The items of a list as they stand in an expression. -/
def displayItems : List Value → List String
  | [] => []
  | v :: vs => display v :: displayItems vs

end

mutual

/-- The value by constructor, with everything in it. -/
def inspect : Value → String
  | null => "Null"
  | bool b => "Bool(" ++ Text.showBool b ++ ")"
  | int n => "Int(" ++ Text.showInt n.toInt ++ ")"
  | float x => "Float(" ++ String.ofList (numberLayout.write x) ++ ")"
  | text s => "Text(" ++ Text.quote s ++ ")"
  | instant t => "DateTime(" ++ t.inspect ++ ")"
  | enum e => "Enum(" ++ e.inspect ++ ")"
  | list items => "List([" ++ ", ".intercalate (inspectItems items) ++ "])"

/-- The items of a list by constructor. -/
def inspectItems : List Value → List String
  | [] => []
  | v :: vs => inspect v :: inspectItems vs

end

end Value

end RowQuery
