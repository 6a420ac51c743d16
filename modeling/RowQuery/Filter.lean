import RowQuery.Config

/-!
# Filter trees

A filter is a tree. A leaf is a condition: a property, an operator and a raw text; a branch joins
two trees by *and* or *or*. Any node may override the deserializer and the registry of operators
for itself and everything below it, each on its own.

## Main definitions

* `Condition`, `Logic`, `Overrides`, `FilterNode`.
* `Overrides.under`: what is in effect at a node.
* `FilterNode.cleared`: the tree without overrides.
* `FilterNode.depth`: the number of nodes on the longest path.

## Main results

* `Overrides.under_assoc`: words of nested nodes can be joined in any grouping.
* `FilterNode.cleared_cleared`, `FilterNode.depth_cleared`: clearing is done at once and keeps the
  shape.
-/

namespace RowQuery

/-- A property, an operator and a raw text. -/
structure Condition where
  property : String
  operator : String
  value : String
  deriving DecidableEq, Repr

/-- How a branch joins its two trees. -/
inductive Logic where
  | and
  | or
  deriving DecidableEq, Repr

/-- Branches that do not say otherwise join by *and*. -/
def Logic.default : Logic := .and

/-- What a node says about deserializer and operators. -/
structure Overrides where
  deserializer : Option Deserializer := none
  operators : Option Registry := none

namespace Overrides

/-- Nothing is said. -/
def none : Overrides := {}

/-- What is in effect at a node: what the node says itself, and otherwise what is in effect above
it. -/
def under (own inherited : Overrides) : Overrides where
  deserializer := own.deserializer.or inherited.deserializer
  operators := own.operators.or inherited.operators

@[simp] theorem under_none (own : Overrides) : own.under none = own := by
  simp [under, none]

theorem under_assoc (a b c : Overrides) : (a.under b).under c = a.under (b.under c) := by
  simp [under, Option.or_assoc]

end Overrides

/-- A filter tree. -/
inductive FilterNode where
  | leaf (condition : Condition) (overrides : Overrides)
  | branch (left : FilterNode) (logic : Logic) (right : FilterNode) (overrides : Overrides)

namespace FilterNode

/-- What the root says. -/
def overrides : FilterNode → Overrides
  | leaf _ o | branch _ _ _ o => o

/-- The tree with other words at its root. -/
def withOverrides (o : Overrides) : FilterNode → FilterNode
  | leaf c _ => leaf c o
  | branch l g r _ => branch l g r o

/-- The tree with another deserializer at its root. -/
def setDeserializer (d : Option Deserializer) (n : FilterNode) : FilterNode :=
  n.withOverrides { n.overrides with deserializer := d }

/-- The tree with other operators at its root. -/
def setOperators (r : Option Registry) (n : FilterNode) : FilterNode :=
  n.withOverrides { n.overrides with operators := r }

/-- The tree without any overrides. -/
def cleared : FilterNode → FilterNode
  | leaf c _ => leaf c .none
  | branch l g r _ => branch l.cleared g r.cleared .none

/-- The number of nodes on the longest path from the root. -/
def depth : FilterNode → Nat
  | leaf _ _ => 1
  | branch l _ r _ => max l.depth r.depth + 1

@[simp] theorem cleared_cleared (n : FilterNode) : n.cleared.cleared = n.cleared := by
  induction n with
  | leaf => rfl
  | branch l g r o ihl ihr => simp [cleared, ihl, ihr]

@[simp] theorem depth_cleared (n : FilterNode) : n.cleared.depth = n.depth := by
  induction n with
  | leaf => rfl
  | branch l g r o ihl ihr => simp [cleared, depth, ihl, ihr]

/-! ### Paths

The path of a node is that of the root, and behind it a word for each step down. -/

/-- The path of the root. -/
def rootPath : String := "$"

/-- The path of the left tree below a path. -/
def leftOf (path : String) : String := path ++ ".left"

/-- The path of the right tree below a path. -/
def rightOf (path : String) : String := path ++ ".right"

/-! ### Inspection -/

/-- The overrides as two fields. -/
def inspectOverrides (o : Overrides) : String :=
  let operators := match o.operators with
    | some r => "Some(" ++ r.inspectNames ++ ")"
    | .none => "None"
  "deserializer: " ++ Text.showBool o.deserializer.isSome ++ ", operators: " ++ operators

/-- The tree by constructor. -/
def inspect : FilterNode → String
  | leaf c o =>
    "FilterNode \x7b kind: Leaf(Condition \x7b property: " ++ Text.quote c.property
      ++ ", operator: " ++ Text.quote c.operator ++ ", value: " ++ Text.quote c.value ++ " \x7d), "
      ++ inspectOverrides o ++ " \x7d"
  | branch l g r o =>
    "FilterNode \x7b kind: Branch \x7b left: " ++ l.inspect ++ ", logic: "
      ++ (match g with | .and => "And" | .or => "Or") ++ ", right: " ++ r.inspect ++ " \x7d, "
      ++ inspectOverrides o ++ " \x7d"

end FilterNode

end RowQuery
