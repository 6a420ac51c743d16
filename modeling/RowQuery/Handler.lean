import RowQuery.Expr

/-!
# Operators

An operator builds a condition from what a property reads and a constant. Its handler also says of
which type the constant is, and how absent properties are dealt with.

## Where the guard stands

As a rule an operator is given the present value and knows nothing of absence. The guard is put
around whatever the operator builds, negations included, and is false where the property is absent.
So no operator, built-in or not, holds of an absent property unless its handler asks to be left
unguarded.

## Main definitions

* `OperandError`: why operands are refused.
* `Handler`: an operator.
-/

namespace RowQuery

/-- Why an operator refuses its operands. -/
inductive OperandError where
  | notNullable (type : String)
  | unsupported (reason : String)
  deriving DecidableEq, Repr

/-- The wording of a refusal. -/
def OperandError.message : OperandError → String
  | notNullable type => "type " ++ type ++ " is not nullable"
  | unsupported reason => reason

/-- An operator. Types come in pairs, the type of a present value of the property and the type as
declared. -/
structure Handler where
  /-- The condition on what the property reads and on the constant. -/
  build : DataType → DataType → Expr → Expr → Except OperandError Expr
  /-- The type of the constant, where it is not the declared one. -/
  constantType? : Option (DataType → DataType → DataType) := none
  /-- The property is read as it is and the condition stands without a guard. -/
  unguarded : Bool := false
  /-- Only properties that may be absent are accepted. -/
  needsAbsence : Bool := false

namespace Handler

/-- The type of the constant. -/
def constantType (h : Handler) (present declared : DataType) : DataType :=
  match h.constantType? with
  | some f => f present declared
  | none => declared

/-- What can be seen of a handler. -/
def inspect (h : Handler) : String :=
  "OperatorHandler \x7b value_type: " ++ Text.showBool h.constantType?.isSome
    ++ ", skip_null_guard: " ++ Text.showBool h.unguarded
    ++ ", nullable_only: " ++ Text.showBool h.needsAbsence ++ ", .. \x7d"

/-- What the operator is given to read a property: the present value, if presence shows by a flag
and the operator stands behind a guard. -/
def operand (h : Handler) (t : DataType) (access : Expr) : Expr :=
  if !h.unguarded && t.absence == .flagged then .valueOf access else access

/-- The condition behind the guard that the property's type calls for: false where the property is
absent. -/
def guarded (h : Handler) (t : DataType) (access condition : Expr) : Expr :=
  if h.unguarded then condition
  else
    match t.absence with
    | .flagged => .cond (.isPresent access) condition (.bool false)
    | .reference => .cond (.compare .ne access (.null t)) condition (.bool false)
    | .never => condition

end Handler

end RowQuery
