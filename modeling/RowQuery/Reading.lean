import RowQuery.Json.Reader
import RowQuery.Text.Blank
import RowQuery.Value

/-!
# Raw texts to values

A condition carries its value as raw text. A deserializer reads the text as a value of a wanted
type; the bundled one takes it for JSON.

## Main definitions

* `ReadFault`: why a text is no value of a type.
* `Kind.read`, `DataType.read`: a JSON value as a scalar of a kind, as a value of a type.
* `DataType.readText`: a JSON text as a value of a type.
* `Deserializer`, `Deserializer.json`: the readers of raw texts.
-/

namespace RowQuery

/-- Why a raw text is no value of a type. -/
inductive ReadFault where
  /-- The text cannot be read as JSON. -/
  | json (fault : Json.Fault)
  /-- Null for a type without absence. -/
  | nullNotAllowed (type : String)
  /-- A JSON value of another form. -/
  | mismatch (expected found : String)
  /-- No variant of the enumeration has this name or number. -/
  | undefinedEnum (name value : String)
  /-- The text is no date and time. -/
  | dateTime (raw : String)
  /-- A reason of the deserializer's own. -/
  | custom (message : String)
  deriving DecidableEq, Repr

/-- The wording of a fault. A text that is not JSON is told by its kind of fault alone. -/
def ReadFault.message : ReadFault → String
  | json (.misfit (some note)) => note
  | json _ => ""
  | nullNotAllowed type => "null is not allowed for non-nullable " ++ type
  | mismatch expected found => "expected " ++ expected ++ ", found " ++ found
  | undefinedEnum name value => value ++ " is not a defined " ++ name ++ " value"
  | dateTime raw => "invalid date-time " ++ Text.quote raw
  | custom message => message

namespace Json

/-- The name of a JSON value's form. -/
def form : Json → String
  | null => "null"
  | bool _ => "boolean"
  | number _ => "number"
  | text _ => "string"
  | array _ => "array"
  | object _ => "object"

/-- A whole number that is a signed one of 64 bits. -/
def int64? : Json → Option Int64
  | number (.int n) => if Text.fitsInt64 n then some (Int64.ofInt n) else none
  | _ => none

/-- A number as one of floating point. -/
def float? : Json → Option Binary64
  | number (.int n) => some (Binary64.ofInt n)
  | number (.float x) => some x
  | _ => none

end Json

/-! ### Enumerations -/

namespace EnumDef

/-- The variant with a number, if there is one. -/
def read (e : EnumDef) (number : Int64) : Except ReadFault Value :=
  if e.defines number then .ok (.enum ⟨e, number⟩)
  else .error (.undefinedEnum e.name (Text.showInt number.toInt))

/-- The variant with a name, without regard to case, or else with the number that the text stands
for. -/
def readName (e : EnumDef) (s : String) : Except ReadFault Value :=
  match (e.numberOf? s).or (Text.readInt64? (Text.trim s.toList)) with
  | some n => e.read n
  | none => .error (.undefinedEnum e.name s)

end EnumDef

/-! ### Kinds and types -/

/-- A value if it is there, and otherwise the report that a JSON value has another form. -/
def Kind.expect (k : Kind) (j : Json) : Option Value → Except ReadFault Value
  | some v => .ok v
  | none => .error (.mismatch k.display j.form)

/-- A JSON value as a scalar of a kind. -/
def Kind.read (k : Kind) (j : Json) : Except ReadFault Value :=
  match k, j with
  | .bool, .bool b => .ok (.bool b)
  | .int, j => k.expect j (j.int64?.map .int)
  | .float, j => k.expect j (j.float?.map .float)
  | .text, .text s => .ok (.text s)
  | .instant, .text s =>
    match Instant.read? s with
    | some t => .ok (.instant t)
    | none => .error (.dateTime s)
  | .enum e, .text s => e.readName s
  | .enum e, j =>
    match j.int64? with
    | some n => e.read n
    | none => k.expect j none
  | _, _ => k.expect j none

namespace DataType

/-- A JSON value as a value of a type: null where absence is allowed, an array of scalars for a
sequence, and a scalar otherwise. -/
def read (t : DataType) (j : Json) : Except ReadFault Value :=
  match t.discipline, j with
  | .value, .null => .error (.nullNotAllowed t.display)
  | _, .null => .ok .null
  | .array, .array items => (items.mapM t.kind.read).map .list
  | .array, j => .error (.mismatch t.display j.form)
  | _, j => t.kind.read j

/-- A JSON text as a value of a type. -/
def readText (t : DataType) (raw : String) : Except ReadFault Value :=
  match Json.parse raw with
  | .ok j => t.read j
  | .error f => .error (.json f)

end DataType

/-! ### Deserializers -/

/-- A reader of raw texts. Its label tells it from others where its calls are recorded. -/
structure Deserializer where
  label : Option String
  read : String → DataType → Except ReadFault Value

namespace Deserializer

/-- The reader of JSON texts. -/
def json : Deserializer := ⟨none, fun raw t => t.readText raw⟩

end Deserializer

end RowQuery
