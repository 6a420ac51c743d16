import RowQuery.Schema
import RowQuery.Text.Occurrence
import RowQuery.Value.Order

/-!
# Expressions over a row

What filters and sort keys compile to. Every expression reads one row.

## Total, permissive semantics

Evaluation always gives a value. Comparing with an absent value is false, two absent values are
equal, and an operand of the wrong kind makes a condition false. In particular `valueOf` of an
absent value is absent again: that a compiled condition reads a value only where it is present is a
property of compilation, and no expression is checked for it when it is built.

A condition counts as true exactly when its value is the truth value `true` (`Value.isTrue`), so
`not` of an operand that is no truth value is true.

## Main definitions

* `CompareOp`, `TextOp`, `Expr`.
* `Expr.type`: the type of an expression's value.
* `Expr.eval`, `Expr.test`: the value of an expression on a row, and whether it is true there.
* `Expr.display`, `Expr.inspect`: the two texts of an expression.
-/

namespace RowQuery

/-- A comparison of two values. -/
inductive CompareOp where
  | eq
  | ne
  | gt
  | gte
  | lt
  | lte
  deriving DecidableEq, Repr

namespace CompareOp

/-- The symbol of the comparison. -/
def symbol : CompareOp → String
  | eq => "=="
  | ne => "!="
  | gt => ">"
  | gte => ">="
  | lt => "<"
  | lte => "<="

/-- The comparison holds between two values. -/
def test (op : CompareOp) (a b : Value) : Bool :=
  match op with
  | eq => a.equals b
  | ne => !a.equals b
  | gt => a.compare? b == some .gt
  | gte => a.compare? b == some .gt || a.compare? b == some .eq
  | lt => a.compare? b == some .lt
  | lte => a.compare? b == some .lt || a.compare? b == some .eq

/-- The comparison by constructor. -/
def inspect : CompareOp → String
  | eq => "Eq"
  | ne => "Ne"
  | gt => "Gt"
  | gte => "Gte"
  | lt => "Lt"
  | lte => "Lte"

end CompareOp

/-- A test of one text against another. -/
inductive TextOp where
  | contains
  | startsWith
  | endsWith
  deriving DecidableEq, Repr

namespace TextOp

/-- The name of the test. -/
def method : TextOp → String
  | contains => "contains"
  | startsWith => "starts_with"
  | endsWith => "ends_with"

/-- The test holds of a text and what is looked for. -/
def test (op : TextOp) (text needle : String) : Bool :=
  match op with
  | contains => Text.contains text needle
  | startsWith => Text.startsWith text needle
  | endsWith => Text.endsWith text needle

/-- The test by constructor. -/
def inspect : TextOp → String
  | contains => "Contains"
  | startsWith => "StartsWith"
  | endsWith => "EndsWith"

end TextOp

/-- An expression over a row. -/
inductive Expr where
  | constant (value : Value) (type : DataType)
  /-- The property at a place of the schema. -/
  | property (id : Nat) (name : String) (type : DataType)
  /-- The value behind a flag of presence; meant for rows that have it. -/
  | valueOf (e : Expr)
  | isPresent (e : Expr)
  | compare (op : CompareOp) (left right : Expr)
  /-- The list `set` holds the value. -/
  | member (set value : Expr)
  | text (op : TextOp) (target arg : Expr)
  | not (e : Expr)
  | and (left right : Expr)
  | or (left right : Expr)
  | cond (test yes no : Expr)
  deriving Repr

namespace Expr

/-- The absent value of a type. -/
def null (type : DataType) : Expr := constant .null type

/-- A truth value. -/
def bool (b : Bool) : Expr := constant (.bool b) .bool

/-- The type of the expression's value. -/
def type : Expr → DataType
  | constant _ t | property _ _ t => t
  | valueOf e => e.type.present
  | cond _ yes _ => yes.type
  | _ => .bool

variable {ρ : Type}

/-- The value of the expression on a row. -/
def eval (s : Schema ρ) (row : ρ) : Expr → Value
  | constant v _ => v
  | property id _ _ => s.read id row
  | valueOf e => e.eval s row
  | isPresent e => .bool !(e.eval s row).isNull
  | compare op l r => .bool (op.test (l.eval s row) (r.eval s row))
  | member set value =>
    match (set.eval s row).asList? with
    | some items => .bool (items.any fun item => item.equals (value.eval s row))
    | none => .bool false
  | text op target arg =>
    match (target.eval s row).asText?, (arg.eval s row).asText? with
    | some t, some a => .bool (op.test t a)
    | _, _ => .bool false
  | not e => .bool !(e.eval s row).isTrue
  | and l r => .bool ((l.eval s row).isTrue && (r.eval s row).isTrue)
  | or l r => .bool ((l.eval s row).isTrue || (r.eval s row).isTrue)
  | cond test yes no => if (test.eval s row).isTrue then yes.eval s row else no.eval s row

/-- The expression is true on a row. -/
def test (s : Schema ρ) (row : ρ) (e : Expr) : Bool :=
  (e.eval s row).isTrue

/-! ### Text -/

/-- The expression over a row that is called `it`. -/
def display : Expr → String
  | constant v _ => v.display
  | property _ name _ => "it." ++ name
  | valueOf e => e.display ++ ".value()"
  | isPresent e => e.display ++ ".is_some()"
  | compare op l r => "(" ++ l.display ++ " " ++ op.symbol ++ " " ++ r.display ++ ")"
  | member set value => set.display ++ ".contains(" ++ value.display ++ ")"
  | text op target arg => target.display ++ "." ++ op.method ++ "(" ++ arg.display ++ ")"
  | not e => "!" ++ e.display
  | and l r => "(" ++ l.display ++ " && " ++ r.display ++ ")"
  | or l r => "(" ++ l.display ++ " || " ++ r.display ++ ")"
  | cond test yes no =>
    "if " ++ test.display ++ " \x7b " ++ yes.display ++ " \x7d else \x7b " ++ no.display ++ " \x7d"

/-- The expression by constructor, with everything in it. -/
def inspect : Expr → String
  | constant v t => "Constant \x7b value: " ++ v.inspect ++ ", ty: " ++ t.inspect ++ " \x7d"
  | property id name t =>
    "Property \x7b id: PropertyId(" ++ Text.showInt id ++ "), name: " ++ Text.quote name
      ++ ", ty: " ++ t.inspect ++ " \x7d"
  | valueOf e => "Unwrap(" ++ e.inspect ++ ")"
  | isPresent e => "HasValue(" ++ e.inspect ++ ")"
  | compare op l r =>
    "Cmp \x7b op: " ++ op.inspect ++ ", left: " ++ l.inspect ++ ", right: " ++ r.inspect ++ " \x7d"
  | member set value =>
    "Member \x7b set: " ++ set.inspect ++ ", value: " ++ value.inspect ++ " \x7d"
  | text op target arg =>
    "Text \x7b op: " ++ op.inspect ++ ", target: " ++ target.inspect ++ ", arg: " ++ arg.inspect
      ++ " \x7d"
  | not e => "Not(" ++ e.inspect ++ ")"
  | and l r => "And(" ++ l.inspect ++ ", " ++ r.inspect ++ ")"
  | or l r => "Or(" ++ l.inspect ++ ", " ++ r.inspect ++ ")"
  | cond test yes no =>
    "Cond \x7b test: " ++ test.inspect ++ ", then: " ++ yes.inspect ++ ", otherwise: "
      ++ no.inspect ++ " \x7d"

end Expr

end RowQuery
