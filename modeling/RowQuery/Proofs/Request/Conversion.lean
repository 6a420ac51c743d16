import RowQuery.Proofs.Filter.Leaves
import RowQuery.Proofs.Request.WireNode

/-!
# Filter trees and the nodes they are sent as

A tree is sent as a node and a node is taken for a tree, and each way undoes the other but for one
thing. A tree loses its overrides, since they are not sent. A node gains the words that its sender
left out, since a tree has a word at every branch; everything else of it comes back as it was sent,
field by field.

## The two ways are not alike

Every tree has a node, but few nodes have a tree. So going from a tree to a node and back is said of
all trees, and going from a node to a tree and back only of the nodes that are accepted. A node that
is accepted is known by the tree that comes of it, up to the words that were left out.

## Main definitions

* `FilterNode.Bare`: no node of the tree has overrides.
* `WireNode.filled`: a node with the words that were left out.

## Main results

* `FilterNode.bare_iff`: the trees that are sent without a loss.
* `WireNode.ofNode_of_toNode`: the node of a node's tree.
* `WireNode.conversion_inverse`: both ways, and what they mean for compiling.
-/

namespace RowQuery

/-! ### Trees without overrides -/

namespace FilterNode

/-- No node of the tree has overrides. -/
def Bare (n : FilterNode) : Prop :=
  ∀ steps m, n.descend steps = some m → m.overrides = .none

theorem bare_leaf_iff {c : Condition} {o : Overrides} : (leaf c o).Bare ↔ o = .none := by
  constructor
  · intro h
    exact h [] _ rfl
  · rintro rfl steps m hm
    cases steps with
    | nil =>
      cases hm
      rfl
    | cons side steps => cases side <;> cases hm

theorem bare_branch_iff {l r : FilterNode} {g : Logic} {o : Overrides} :
    (branch l g r o).Bare ↔ o = .none ∧ l.Bare ∧ r.Bare := by
  constructor
  · intro h
    exact ⟨h [] _ rfl, fun steps m hm => h (.left :: steps) m hm,
      fun steps m hm => h (.right :: steps) m hm⟩
  · rintro ⟨rfl, hl, hr⟩ steps m hm
    cases steps with
    | nil =>
      cases hm
      rfl
    | cons side steps =>
      cases side with
      | left => exact hl steps m hm
      | right => exact hr steps m hm

/-- **The trees without overrides** are those that clearing leaves as they are. -/
theorem bare_iff {n : FilterNode} : n.Bare ↔ n.cleared = n := by
  induction n with
  | leaf c o =>
    rw [bare_leaf_iff, cleared, leaf.injEq]
    exact ⟨fun h => ⟨rfl, h.symm⟩, fun h => h.2.symm⟩
  | branch l g r o ihl ihr =>
    rw [bare_branch_iff, ihl, ihr, cleared, branch.injEq]
    constructor
    · rintro ⟨ho, hl, hr⟩
      exact ⟨hl, rfl, hr, ho.symm⟩
    · rintro ⟨hl, -, hr, ho⟩
      exact ⟨ho.symm, hl, hr⟩

/-- Clearing changes nothing but overrides: it takes them from each node where it stands. -/
theorem descend_cleared (n : FilterNode) (steps : List Side) :
    n.cleared.descend steps = (n.descend steps).map cleared := by
  induction steps generalizing n with
  | nil => simp [descend]
  | cons side steps ih =>
    cases n with
    | leaf => cases side <;> rfl
    | branch l g r o =>
      cases side with
      | left => exact ih l
      | right => exact ih r

end FilterNode

/-! ### Nodes with all their words -/

namespace WireNode

/-- The node with *and* wherever no word stands between two children. -/
def filled : WireNode → WireNode
  | node none (some l) g (some r) =>
    node none (some l.filled) (some (g.getD .and)) (some r.filled)
  | w => w

/-- **The node of a node's tree** is the node with all its words. The induction is on the tree: what
it is made of tells which fields the node has. -/
theorem ofNode_of_toNode {w : WireNode} {path : String} {n : FilterNode}
    (h : w.toNode path = .ok n) : ofNode n = w.filled := by
  induction n generalizing w path with
  | leaf c o =>
    obtain ⟨_, rfl, heq⟩ | ⟨_, _, _, _, _, -, -, -, heq⟩ := of_toNode_eq_ok h <;> cases heq
    rfl
  | branch left logic right o ihl ihr =>
    obtain ⟨_, -, heq⟩ | ⟨l, g, r, _, _, rfl, hl, hr, heq⟩ := of_toNode_eq_ok h <;> cases heq
    rw [ofNode, ihl hl, ihr hr, filled]
    rfl

/-- A tree without overrides is its node's tree. -/
theorem toNode_ofNode_of_bare {n : FilterNode} (h : n.Bare) (path : String) :
    (ofNode n).toNode path = .ok n := by
  rw [toNode_ofNode, FilterNode.bare_iff.mp h]

/-- **The two ways undo each other.** Every tree comes back from its node, wherever the node stands,
without overrides and otherwise as it was; every node that is accepted comes back from its tree with
the words that were left out and otherwise as it was. So a tree without overrides compiles after the
way there and back as it did before, with the same outcome and the same events. -/
theorem conversion_inverse {ρ : Type} (path : String) :
    (∀ n : FilterNode, (ofNode n).toNode path = .ok n.cleared ∧ n.cleared.Bare ∧
      ∀ steps, n.cleared.descend steps = (n.descend steps).map FilterNode.cleared) ∧
    (∀ (w : WireNode) (n : FilterNode), w.toNode path = .ok n → ofNode n = w.filled) ∧
    ∀ n : FilterNode, n.Bare → ∃ m, (ofNode n).toNode path = .ok m ∧
      ∀ (s : Schema ρ) (config : Config) (inherited : Overrides),
        m.compileBelow s config inherited = n.compileBelow s config inherited := by
  refine ⟨fun n => ⟨toNode_ofNode n path, ?_, n.descend_cleared⟩, fun w n h => ofNode_of_toNode h,
    fun n h => ⟨n, toNode_ofNode_of_bare h path, fun _ _ _ => rfl⟩⟩
  exact FilterNode.bare_iff.mpr n.cleared_cleared

/-- One of two branches is sent without a word. It comes back with one, and the tree, which has no
overrides, compiles after the way there and back as it did before. -/
theorem conversion_inverse_unworded :
    let c : Condition := ⟨"Age", "gt", "3"⟩
    let leaf : WireNode := node (some c) none none none
    let n : FilterNode :=
      .branch (.leaf c .none) .and (.branch (.leaf c .none) .or (.leaf c .none) .none) .none
    let sent (g : Option Logic) : WireNode :=
      node none (some leaf) g (some (node none (some leaf) (some .or) (some leaf)))
    (sent none).toNode FilterNode.rootPath = .ok n ∧ ofNode n = sent (some .and) ∧
      n.Bare ∧ ∃ m, (ofNode n).toNode FilterNode.rootPath = .ok m ∧
        ∀ (s : Schema Unit) (config : Config) (inherited : Overrides),
          m.compileBelow s config inherited = n.compileBelow s config inherited := by
  intro c leaf n sent
  have hread : (sent none).toNode FilterNode.rootPath = .ok n := rfl
  have hbare : n.Bare := FilterNode.bare_iff.mpr rfl
  obtain ⟨-, hback, hcompile⟩ := conversion_inverse (ρ := Unit) FilterNode.rootPath
  exact ⟨hread, hback _ _ hread, hbare, hcompile n hbare⟩

end WireNode

end RowQuery
