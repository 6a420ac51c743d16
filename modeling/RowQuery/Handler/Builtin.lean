import RowQuery.Handler

/-!
# The built-in operators

The built-in operators come in families, and each family accepts certain kinds of operands.

## Main definitions

* `Family`: the families; `Family.supports`: the kinds they accept.
* `Handler.comparison`, `Handler.membership`, `Handler.textual`, `Handler.nullness`: the operators.
-/

namespace RowQuery

/-- The built-in operators by what they do. -/
inductive Family where
  | equality
  | ordering
  | membership
  | textContains
  | textStart
  | textEnd
  | nullness
  deriving DecidableEq, Repr

namespace Family

/-- The families in their order. -/
def all : List Family :=
  [equality, ordering, membership, textContains, textStart, textEnd, nullness]

/-- The name of a family. -/
def display : Family → String
  | equality => "Equality"
  | ordering => "Ordering"
  | membership => "Membership"
  | textContains => "TextContains"
  | textStart => "TextPrefix"
  | textEnd => "TextSuffix"
  | nullness => "Nullness"

/-- The family accepts operands of the kind: truth values have no order, and only texts are looked
into. -/
def supports (f : Family) (k : Kind) : Bool :=
  match f with
  | equality | membership | nullness => true
  | ordering => k != .bool
  | textContains | textStart | textEnd => k == .text

/-- Operands of a kind that the family does not accept are refused. -/
def check (f : Family) (present : DataType) : Except OperandError Unit :=
  if f.supports present.kind then .ok ()
  else .error (.unsupported (f.display ++ " operators do not accept " ++ present.display
    ++ " operands"))

end Family

namespace Handler

/-- The condition, or its negation. -/
def negateIf (negated : Bool) (e : Expr) : Expr :=
  if negated then .not e else e

/-- A comparison of the property with the constant. -/
def comparison (f : Family) (op : CompareOp) : Handler where
  build present _ left right := do
    f.check present
    .ok (.compare op left right)

/-- The property is, or is not, among the constant's items. -/
def membership (negated : Bool) : Handler where
  build present _ left right := do
    Family.membership.check present
    if right.type.isSequence then .ok (negateIf negated (.member right left))
    else .error (.unsupported ("membership needs a sequence operand, found "
      ++ right.type.display))
  constantType? := some fun present _ => present.sequence

/-- A test of the property's text against the constant's, or its negation. -/
def textual (f : Family) (op : TextOp) (negated : Bool) : Handler where
  build present _ left right := do
    f.check present
    .ok (negateIf negated (.text op left right))

/-- The property is absent, or is present. The constant plays no part. -/
def nullness (isNull : Bool) : Handler where
  build present declared left _ := do
    Family.nullness.check present
    match declared.absence with
    | .flagged => .ok (negateIf isNull (.isPresent left))
    | .reference => .ok (.compare (if isNull then .eq else .ne) left (.null declared))
    | .never => .error (.notNullable declared.display)
  constantType? := some fun _ declared => declared
  unguarded := true
  needsAbsence := true

end Handler

end RowQuery
