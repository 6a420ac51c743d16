import RowQuery.Binary64.Rounding
import RowQuery.Schema

/-!
# Columns

A column stores its cells in a form of its own: whole numbers, floating-point numbers of 32 or 64
bits, variants of an enumeration by number, and so on. A property over a column has the kind of the
column's values.

## Main definitions

* `Column`: the forms of storage.
* `Column.kind`, `Column.load`: the kind of the values, and the value of a stored cell.
-/

namespace RowQuery

/-- A form in which cells are stored. -/
inductive Column where
  | int
  | single
  | double
  | bool
  | text
  | instant
  | enum (e : EnumDef)
  deriving DecidableEq, Repr

namespace Column

/-- The kind of the values of a column. -/
def kind : Column → Kind
  | int => .int
  | single | double => .float
  | bool => .bool
  | text => .text
  | instant => .instant
  | enum e => .enum e

/-- The value of a stored cell. A column of single precision keeps what 32 bits can hold, and a
column of variants stores their numbers; an absent cell stays absent. -/
def load (c : Column) (cell : Value) : Value :=
  match c, cell with
  | single, .float x => .float x.toSingle
  | enum e, .int n => .enum ⟨e, n⟩
  | _, v => v

/-- The property over a column, by how its cell is found in a row. -/
def property {ρ : Type} (c : Column) (name : String) (d : Discipline) (cell : ρ → Value) :
    Property ρ where
  name := name
  type := ⟨d, c.kind⟩
  get row := c.load (cell row)

end Column

end RowQuery
