import RowQuery.QueryError
import RowQuery.Filter

/-!
# Filter nodes as they are sent

In a text any of the four fields of a filter node may be missing. A node is well formed if it has
a condition and nothing else, or two children and no condition; a missing word between the
children is *and*.

## Main definitions

* `WireNode`: a node with any of its fields.
* `WireNode.toNode`: the filter tree, or the first malformed node before its children.
* `WireNode.ofNode`: the node of a filter tree.
-/

namespace RowQuery

/-- A filter node as it is sent, with any of its fields. -/
inductive WireNode where
  | node (condition : Option Condition) (left : Option WireNode) (logic : Option Logic)
      (right : Option WireNode)

namespace WireNode

/-- Why a node that has a condition is malformed. -/
def mixedReason : String :=
  "a condition node cannot also carry children or a logical operator"

/-- Why a node with a left child only is malformed. -/
def noRightReason : String := "branch is missing its right child"

/-- Why a node with a right child only is malformed. -/
def noLeftReason : String := "branch is missing its left child"

/-- Why a node without condition and children is malformed. -/
def emptyReason : String := "node has neither a condition nor children"

/-- The filter tree of a node at a path, or the first malformed node: a node before its children,
the left child before the right one. -/
def toNode : WireNode → String → Except QueryError FilterNode
  | node (some c) none none none, _ => .ok (.leaf c .none)
  | node (some _) _ _ _, path => .error (.invalidNode path mixedReason)
  | node none (some l) logic (some r), path => do
    let left ← toNode l (FilterNode.leftOf path)
    let right ← toNode r (FilterNode.rightOf path)
    .ok (.branch left (logic.getD .default) right .none)
  | node none (some _) _ none, path => .error (.invalidNode path noRightReason)
  | node none none _ (some _), path => .error (.invalidNode path noLeftReason)
  | node none none _ none, path => .error (.invalidNode path emptyReason)

/-- The node of a filter tree; overrides are not sent. -/
def ofNode : FilterNode → WireNode
  | .leaf c _ => node (some c) none none none
  | .branch l g r _ => node none (some (ofNode l)) (some g) (some (ofNode r))

end WireNode

end RowQuery
