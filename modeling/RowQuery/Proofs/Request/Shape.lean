import Mathlib.Data.List.Lex
import RowQuery.Proofs.Filter.Leaves
import RowQuery.Request.WireNode

/-!
# The shape of nodes that are sent

A node that is sent may have any of its four fields, and only two combinations of them make sense: a
condition alone, or two children and perhaps a word between them. A tree is accepted exactly if
every node of it has one of these shapes. Otherwise one node is blamed, the first malformed one when
a node is read before its left tree and its left tree before its right one.

## Which node comes first

Nodes are told apart by the steps that lead to them, and reading a tree in that order is the
lexicographic order of these steps: a node before all that is below it, left before right. So the
first malformed node is said of the tree as it was sent, without running through it. What stands
below a malformed node comes behind it in this order, so it makes no difference to the blame,
however malformed it is itself.

## Main definitions

* `WireNode.WellFormed`, `WireNode.Malformed`: the shape of a node; why it makes no sense.
* `WireNode.descend`: the node that some steps lead to.
* `Side.Before`: the order in which nodes are read.
* `WireNode.Blames`: the first malformed node of a tree, and why it is malformed.

## Main results

* `WireNode.wellFormed_or_malformed`: a node is one or the other.
* `WireNode.Blames.unique`: one node is blamed, for one reason.
* `WireNode.toNode_blames_first`: what is accepted, and the error of everything else.
-/

namespace RowQuery

/-! ### Reading order -/

/-- The node at the end of some steps is read before the one at the end of others: a node before
those below it, and the left tree before the right one. -/
def Side.Before : List Side → List Side → Prop :=
  List.Lex fun a b => a = .left ∧ b = .right

theorem Side.not_before_of_before {a b : List Side} (h : Before a b) : ¬ Before b a := by
  induction h with
  | nil => rintro ⟨⟩
  | rel hab =>
    obtain ⟨rfl, rfl⟩ := hab
    intro h
    cases h with
    | rel hba => cases hba.1
  | cons _ ih =>
    intro h
    cases h with
    | rel haa => cases haa.1.symm.trans haa.2
    | cons h => exact ih h

namespace WireNode

/-! ### One node -/

/-- The node has a condition alone, or two children and perhaps a word between them. -/
inductive WellFormed : WireNode → Prop where
  | condition {c : Condition} : WellFormed (node (some c) none none none)
  | children {l r : WireNode} {g : Option Logic} : WellFormed (node none (some l) g (some r))

/-- The fields of the node do not go together, for a reason. -/
inductive Malformed : WireNode → String → Prop where
  | mixed {c : Condition} {l r : Option WireNode} {g : Option Logic}
      (h : l.isSome = true ∨ g.isSome = true ∨ r.isSome = true) :
    Malformed (node (some c) l g r) mixedReason
  | noRight {l : WireNode} {g : Option Logic} : Malformed (node none (some l) g none) noRightReason
  | noLeft {r : WireNode} {g : Option Logic} : Malformed (node none none g (some r)) noLeftReason
  | empty {g : Option Logic} : Malformed (node none none g none) emptyReason

theorem WellFormed.not_malformed {w : WireNode} (h : w.WellFormed) (reason : String) :
    ¬ w.Malformed reason := by
  cases h with
  | condition =>
    intro hm
    cases hm with
    | mixed h => simp at h
  | children => rintro ⟨⟩

/-- **A node is well formed, or there is a reason why it is not.** -/
theorem wellFormed_or_malformed (w : WireNode) : w.WellFormed ∨ ∃ reason, w.Malformed reason := by
  obtain ⟨c, l, g, r⟩ := w
  cases c with
  | some c =>
    by_cases h : l.isSome = true ∨ g.isSome = true ∨ r.isSome = true
    · exact .inr ⟨_, .mixed h⟩
    · simp only [not_or, Bool.not_eq_true, Option.isSome_eq_false_iff, Option.isNone_iff_eq_none]
        at h
      obtain ⟨rfl, rfl, rfl⟩ := h
      exact .inl .condition
  | none =>
    cases l with
    | none =>
      cases r with
      | none => exact .inr ⟨_, .empty⟩
      | some r => exact .inr ⟨_, .noLeft⟩
    | some l =>
      cases r with
      | none => exact .inr ⟨_, .noRight⟩
      | some r => exact .inl .children

theorem not_wellFormed_iff {w : WireNode} : ¬ w.WellFormed ↔ ∃ reason, w.Malformed reason :=
  ⟨w.wellFormed_or_malformed.resolve_left, fun ⟨reason, hm⟩ h => h.not_malformed reason hm⟩

theorem Malformed.unique {w : WireNode} {reason reason' : String} (h : w.Malformed reason)
    (h' : w.Malformed reason') : reason = reason' := by
  cases h <;> cases h' <;> rfl

/-- A malformed node is blamed itself, whatever is below it. -/
theorem Malformed.toNode_eq {w : WireNode} {reason : String} (h : w.Malformed reason)
    (path : String) : w.toNode path = .error (.invalidNode path reason) := by
  cases h with
  | @mixed c l r g h => cases l <;> cases g <;> cases r <;> simp [toNode] at h ⊢
  | noRight => rfl
  | noLeft => rfl
  | empty => rfl

/-! ### Trees -/

/-- The child on a side. -/
def child? : WireNode → Side → Option WireNode
  | node _ l _ _, .left => l
  | node _ _ _ r, .right => r

/-- The node that some steps lead to. -/
def descend (w : WireNode) : List Side → Option WireNode
  | [] => some w
  | side :: steps => (w.child? side).bind fun v => v.descend steps

/-- The path of the node that some steps lead to, below a path: a word for each step. -/
def pathBelow (path : String) (steps : List Side) : String :=
  steps.foldl (fun path side => path ++ side.word) path

/-- The first malformed node of a tree, by the steps that lead to it, and the reason. -/
structure Blames (w : WireNode) (steps : List Side) (reason : String) : Prop where
  malformed : ∃ v, w.descend steps = some v ∧ v.Malformed reason
  first : ∀ steps' v, w.descend steps' = some v → ¬ v.WellFormed →
    steps' = steps ∨ Side.Before steps steps'

section

variable {w l r : WireNode} {g : Option Logic} {steps : List Side} {reason : String}

/-- **One node is blamed**, for one reason. -/
theorem Blames.unique {steps' : List Side} {reason' : String} (h : w.Blames steps reason)
    (h' : w.Blames steps' reason') : steps' = steps ∧ reason' = reason := by
  obtain ⟨v, hv, hm⟩ := h.malformed
  obtain ⟨v', hv', hm'⟩ := h'.malformed
  have hsteps : steps' = steps := by
    rcases h.first steps' v' hv' (not_wellFormed_iff.mpr ⟨_, hm'⟩) with heq | hbefore
    · exact heq
    · rcases h'.first steps v hv (not_wellFormed_iff.mpr ⟨_, hm⟩) with heq | hafter
      · exact heq.symm
      · exact absurd hafter (Side.not_before_of_before hbefore)
  subst hsteps
  cases hv.symm.trans hv'
  exact ⟨rfl, hm'.unique hm⟩

/-- The root comes first. -/
theorem Malformed.blames (h : w.Malformed reason) : w.Blames [] reason := by
  refine ⟨⟨w, rfl, h⟩, fun steps' v _ _ => ?_⟩
  cases steps' with
  | nil => exact .inl rfl
  | cons side steps' => exact .inr .nil

/-- Of a root with two children the left tree comes first. -/
theorem Blames.left (h : l.Blames steps reason) :
    (node none (some l) g (some r)).Blames (.left :: steps) reason := by
  refine ⟨h.malformed, fun steps' v hv hbad => ?_⟩
  cases steps' with
  | nil =>
    cases hv
    exact absurd .children hbad
  | cons side steps' =>
    cases side with
    | left =>
      rcases h.first steps' v hv hbad with rfl | hbefore
      · exact .inl rfl
      · exact .inr (.cons hbefore)
    | right => exact .inr (.rel ⟨rfl, rfl⟩)

/-- The right tree comes next, if there is nothing to blame in the left one. -/
theorem Blames.right (hleft : ∀ steps v, l.descend steps = some v → v.WellFormed)
    (h : r.Blames steps reason) :
    (node none (some l) g (some r)).Blames (.right :: steps) reason := by
  refine ⟨h.malformed, fun steps' v hv hbad => ?_⟩
  cases steps' with
  | nil =>
    cases hv
    exact absurd .children hbad
  | cons side steps' =>
    cases side with
    | left => exact absurd (hleft steps' v hv) hbad
    | right =>
      rcases h.first steps' v hv hbad with rfl | hbefore
      · exact .inl rfl
      · exact .inr (.cons hbefore)

theorem wellFormed_of_children (hleft : ∀ steps v, l.descend steps = some v → v.WellFormed)
    (hright : ∀ steps v, r.descend steps = some v → v.WellFormed) {v : WireNode}
    (h : (node none (some l) g (some r)).descend steps = some v) : v.WellFormed := by
  cases steps with
  | nil =>
    cases h
    exact .children
  | cons side steps =>
    cases side with
    | left => exact hleft steps v h
    | right => exact hright steps v h

end

/-! ### What is accepted -/

/-- How a tree should end at a path: accepted if all its nodes are well formed, and otherwise with
the error for the first malformed one. -/
inductive Judged (w : WireNode) (path : String) : Except QueryError FilterNode → Prop where
  | accepted {n : FilterNode} (h : ∀ steps v, w.descend steps = some v → v.WellFormed) :
    Judged w path (.ok n)
  | refused {steps : List Side} {reason : String} (h : w.Blames steps reason) :
    Judged w path (.error (.invalidNode (pathBelow path steps) reason))

theorem Judged.children {l r : WireNode} {path : String} {x y : Except QueryError FilterNode}
    (hl : l.Judged (FilterNode.leftOf path) x) (hr : r.Judged (FilterNode.rightOf path) y)
    (g : Option Logic) (join : FilterNode → FilterNode → FilterNode) :
    (node none (some l) g (some r)).Judged path (do
      let left ← x
      let right ← y
      .ok (join left right)) := by
  cases hl with
  | refused hl => exact .refused hl.left
  | accepted hleft =>
    cases hr with
    | refused hr => exact .refused (hr.right hleft)
    | accepted hright => exact .accepted fun _ _ => wellFormed_of_children hleft hright

theorem Malformed.judged {w : WireNode} {reason : String} (h : w.Malformed reason)
    (path : String) : w.Judged path (w.toNode path) := by
  rw [h.toNode_eq path]
  exact .refused h.blames

/-- The induction goes down where a node has two children, and nowhere else. -/
theorem judged_toNode (w : WireNode) (path : String) : w.Judged path (w.toNode path) := by
  induction w, path using toNode.induct with
  | case1 c path =>
    refine .accepted fun steps v hv => ?_
    cases steps with
    | nil =>
      cases hv
      exact .condition
    | cons side steps => cases side <;> cases hv
  | case2 c l g r path hmixed =>
    rcases wellFormed_or_malformed (node (some c) l g r) with h | ⟨reason, h⟩
    · cases h
      exact (hmixed rfl rfl rfl).elim
    · exact h.judged path
  | case3 l g r path ihl ihr => exact ihl.children ihr g _
  | case4 l g path => exact Malformed.noRight.judged path
  | case5 g r path => exact Malformed.noLeft.judged path
  | case6 g path => exact Malformed.empty.judged path

section

variable {w : WireNode} {path : String} {result : Except QueryError FilterNode}

theorem Blames.not_wellFormed {steps : List Side} {reason : String} (h : w.Blames steps reason) :
    ¬ ∀ steps v, w.descend steps = some v → v.WellFormed := by
  intro hall
  obtain ⟨v, hv, hm⟩ := h.malformed
  exact (hall steps v hv).not_malformed reason hm

theorem Judged.ok_iff (h : w.Judged path result) :
    (∃ n, result = .ok n) ↔ ∀ steps v, w.descend steps = some v → v.WellFormed := by
  cases h with
  | accepted hall => exact ⟨fun _ => hall, fun _ => ⟨_, rfl⟩⟩
  | refused hblames => exact ⟨nofun, fun hall => absurd hall hblames.not_wellFormed⟩

theorem Judged.error_iff (h : w.Judged path result) {e : QueryError} :
    result = .error e ↔
      ∃ steps reason, w.Blames steps reason ∧ e = .invalidNode (pathBelow path steps) reason := by
  cases h with
  | accepted hall =>
    refine ⟨nofun, ?_⟩
    rintro ⟨steps, reason, hblames, -⟩
    exact absurd hall hblames.not_wellFormed
  | @refused steps reason hblames =>
    constructor
    · rintro ⟨⟩
      exact ⟨steps, reason, hblames, rfl⟩
    · rintro ⟨steps', reason', hblames', rfl⟩
      obtain ⟨rfl, rfl⟩ := hblames.unique hblames'
      rfl

end

/-- **A tree is accepted if all its nodes are well formed, and otherwise its first malformed node is
blamed.** The error has the path of that node, below the path of the root, and the reason for the
fields that it has. -/
theorem toNode_blames_first (w : WireNode) (path : String) :
    ((∃ n, w.toNode path = .ok n) ↔ ∀ steps v, w.descend steps = some v → v.WellFormed) ∧
      ∀ e, w.toNode path = .error e ↔
        ∃ steps reason, w.Blames steps reason ∧ e = .invalidNode (pathBelow path steps) reason := by
  have h : w.Judged path (w.toNode path) := judged_toNode w path
  exact ⟨h.ok_iff, fun e => h.error_iff⟩

/-- The empty node is not reached: the node above it has no right child and is blamed itself. -/
example (c : Condition) :
    (node none (some (node (some c) none none none)) none
      (some (node none (some (node none none none none)) none none))).toNode FilterNode.rootPath
      = .error (.invalidNode "$.right" noRightReason) := by
  rfl

end WireNode

end RowQuery
