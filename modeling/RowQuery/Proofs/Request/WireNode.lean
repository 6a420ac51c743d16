import RowQuery.Proofs.Json.Record
import RowQuery.Proofs.Json.Written
import RowQuery.Request.Text

/-!
# Filter nodes, written and read back

A filter tree is written as nested objects, one for each node, and one more for the condition of a
leaf. So a reader that may go `k` objects deep reads back exactly the trees with fewer than `k`
nodes on their longest path, and any other tree is malformed for it.

The other way round, whatever text a reader has read: if a filter tree comes of it, then one with
fewer than `k` nodes on its longest path and without overrides. This needs the whole path from the
text to the tree, since a node that is read may have fields that no tree has.

## Main definitions

* `FilterNode.written`: the fields that are sent.
* `WireNode.Within`: a node of which only trees of limited depth are made.

## Main results

* `WireNode.read_toJson`: which trees are read back.
* `WireNode.toNode_ofNode`: the tree of a tree's node.
* `WireNode.within_of_read`, `WireNode.cleared_of_toNode`: which trees come of a text.
-/

namespace RowQuery

open Json (Fault Doc)

/-! ### Names of fields -/

theorem ConditionField.ofName?_name (f : ConditionField) : ofName? f.name = some f := by
  cases f <;> rfl

theorem NodeField.ofName?_name (f : NodeField) : ofName? f.name = some f := by
  cases f <;> rfl

/-! ### Conditions -/

/-- A condition is read back wherever an object may stand. -/
theorem Condition.read_toJson (depth : Nat) (c : Condition) :
    Condition.read (depth + 1) (Doc.ofValue c.toJson) = .ok c := by
  have hdraft : (Doc.ofValue c.toJson).readRecord ConditionField.all ConditionField.ofName?
      Draft.put {} = .ok ⟨some c.property, some c.operator, some c.value⟩ :=
    Doc.readRecord_named ConditionField.ofName?_name
      [(.property, .text c.property), (.operator, .text c.operator), (.value, .text c.value)]
      (show [ConditionField.property, .operator, .value].Nodup by decide)
  rw [Condition.read, hdraft]
  rfl

theorem Condition.optional_toJson {α : Type} (read : Doc → Except Fault α) (c : Condition) :
    Doc.optional read (Doc.ofValue c.toJson) = (read (Doc.ofValue c.toJson)).map some :=
  rfl

theorem Condition.readsBack_toJson (c : Condition) : c.toJson.ReadsBack := by
  rintro n ⟨⟩

/-! ### Trees -/

namespace FilterNode

/-- The object of a tree is not null, so a reader that lets null pass reads it as it is. -/
theorem optional_toJson {α : Type} (read : Doc → Except Fault α) (n : FilterNode) :
    Doc.optional read (Doc.ofValue n.toJson) = (read (Doc.ofValue n.toJson)).map some := by
  cases n <;> rfl

/-- The fields of a node that are sent. -/
def written : FilterNode → List (NodeField × Json)
  | leaf c _ => [(.condition, c.toJson)]
  | branch l g r _ => [(.left, l.toJson), (.logic, .text g.display), (.right, r.toJson)]

theorem toJson_eq_written (n : FilterNode) :
    n.toJson = .object (n.written.map fun f => (f.1.name, f.2)) := by
  cases n <;> rfl

theorem nodup_written (n : FilterNode) : (n.written.map Prod.fst).Nodup := by
  cases n <;> simp [written]

theorem readsBack_toJson (n : FilterNode) : n.toJson.ReadsBack := by
  induction n with
  | leaf c o => exact .object (by simpa using c.readsBack_toJson)
  | branch l g r o ihl ihr => exact .object (by simp [ihl, ihr, Json.ReadsBack.text])

end FilterNode

/-- The word between two children is read back. -/
theorem Logic.optional_display (l : Leniency) (depth : Nat) (g : Logic) :
    Doc.optional (Logic.read l depth) (Doc.ofValue (.text g.display)) = .ok (some g) := by
  cases g <;> rfl

namespace WireNode

/-- The fields of a written node are read in the order in which they are sent. -/
theorem read_written (l : Leniency) (depth : Nat) (n : FilterNode) :
    WireNode.read l (depth + 1) (Doc.ofValue n.toJson) = (do
      let draft ← n.written.foldlM
        (fun acc f => Draft.put l depth (WireNode.read l depth) f.1 (Doc.ofValue f.2) acc) {}
      .ok (node draft.condition draft.left draft.logic draft.right)) := by
  rw [WireNode.read, n.toJson_eq_written,
    Doc.readRecord_named NodeField.ofName?_name _ n.nodup_written]

theorem read_leaf (l : Leniency) (depth : Nat) (c : Condition) (o : Overrides) :
    WireNode.read l (depth + 1) (Doc.ofValue (FilterNode.leaf c o).toJson) =
      (Condition.read depth (Doc.ofValue c.toJson)).map fun c => node (some c) none none none := by
  rw [read_written]
  simp only [FilterNode.written, List.foldlM_cons, List.foldlM_nil, Draft.put,
    Condition.optional_toJson]
  cases Condition.read depth (Doc.ofValue c.toJson) <;> rfl

theorem read_branch (l : Leniency) (depth : Nat) (left : FilterNode) (g : Logic)
    (right : FilterNode) (o : Overrides) :
    WireNode.read l (depth + 1) (Doc.ofValue (FilterNode.branch left g right o).toJson) = (do
      let left ← WireNode.read l depth (Doc.ofValue left.toJson)
      let right ← WireNode.read l depth (Doc.ofValue right.toJson)
      .ok (node none (some left) (some g) (some right))) := by
  rw [read_written]
  simp only [FilterNode.written, List.foldlM_cons, List.foldlM_nil, Draft.put,
    FilterNode.optional_toJson, Logic.optional_display]
  cases WireNode.read l depth (Doc.ofValue left.toJson) with
  | error f => rfl
  | ok left => cases WireNode.read l depth (Doc.ofValue right.toJson) <;> rfl

/-- **The trees that are read back** by a reader that goes `depth` objects deep are those with
fewer nodes on their longest path. -/
theorem read_toJson (l : Leniency) (depth : Nat) (n : FilterNode) :
    WireNode.read l depth (Doc.ofValue n.toJson) =
      if n.depth < depth then .ok (ofNode n) else .error .malformed := by
  induction n generalizing depth with
  | leaf c o =>
    cases depth with
    | zero => rfl
    | succ depth =>
      rw [read_leaf]
      cases depth with
      | zero => rfl
      | succ depth =>
        rw [Condition.read_toJson]
        simp [FilterNode.depth, Except.map, ofNode]
  | branch left g right o ihl ihr =>
    cases depth with
    | zero => rfl
    | succ depth =>
      have hdepth : (FilterNode.branch left g right o).depth < depth + 1 ↔
          left.depth < depth ∧ right.depth < depth := by
        rw [FilterNode.depth]
        omega
      rw [read_branch, ihl, ihr]
      by_cases hl : left.depth < depth
      · by_cases hr : right.depth < depth <;> simp only [hdepth, hl, hr] <;> rfl
      · simp only [hdepth, hl]
        rfl

/-- **The tree of a tree's node** is the tree, but for what is not sent. -/
theorem toNode_ofNode (n : FilterNode) (path : String) :
    (ofNode n).toNode path = .ok n.cleared := by
  induction n generalizing path with
  | leaf c o => rfl
  | branch left g right o ihl ihr =>
    rw [ofNode, toNode, ihl, ihr]
    rfl

/-! ### Trees of a text -/

/-- A tree comes of a node with a condition alone, or of one with two children and no condition. -/
theorem of_toNode_eq_ok {w : WireNode} {path : String} {n : FilterNode}
    (h : w.toNode path = .ok n) :
    (∃ c, w = node (some c) none none none ∧ n = .leaf c .none) ∨
      ∃ lw g rw left right, w = node none (some lw) g (some rw) ∧
        lw.toNode (FilterNode.leftOf path) = .ok left ∧
        rw.toNode (FilterNode.rightOf path) = .ok right ∧
        n = .branch left (g.getD .default) right .none := by
  obtain ⟨c, l, g, r⟩ := w
  cases c with
  | some c =>
    refine .inl ⟨c, ?_⟩
    cases l <;> cases g <;> cases r <;> cases h
    exact ⟨rfl, rfl⟩
  | none =>
    cases l with
    | none => cases r <;> cases h
    | some l =>
      cases r with
      | none => cases h
      | some r =>
        obtain ⟨left, hleft, h⟩ := bind_eq_ok.mp h
        obtain ⟨right, hright, h⟩ := bind_eq_ok.mp h
        cases h
        exact .inr ⟨l, g, r, left, right, rfl, hleft, hright, rfl⟩

/-- The node makes no tree of as many nodes on its longest path. -/
def Within (depth : Nat) (w : WireNode) : Prop :=
  ∀ path n, w.toNode path = .ok n → n.depth < depth

/-- No overrides come of a node. -/
theorem cleared_of_toNode {w : WireNode} {path : String} {n : FilterNode}
    (h : w.toNode path = .ok n) : n.cleared = n := by
  induction n generalizing w path with
  | leaf c o =>
    obtain ⟨_, -, heq⟩ | ⟨_, _, _, _, _, -, -, -, heq⟩ := of_toNode_eq_ok h <;> cases heq
    rfl
  | branch left g right o ihl ihr =>
    obtain ⟨_, -, heq⟩ | ⟨_, _, _, _, _, -, hl, hr, heq⟩ := of_toNode_eq_ok h <;> cases heq
    rw [FilterNode.cleared, ihl hl, ihr hr]

/-- What is read of a node makes no tree of as many nodes on its longest path. -/
structure Draft.Within (depth : Nat) (d : Draft) : Prop where
  condition : d.condition.isSome → 0 < depth
  left : ∀ w ∈ d.left, w.Within depth
  right : ∀ w ∈ d.right, w.Within depth

theorem Draft.Within.node {depth : Nat} {d : Draft} (h : d.Within depth) :
    (WireNode.node d.condition d.left d.logic d.right).Within (depth + 1) := by
  intro path n hn
  obtain ⟨_, hw, rfl⟩ | ⟨lw, _, rw, left, right, hw, hleft, hright, rfl⟩ := of_toNode_eq_ok hn
  · obtain ⟨hc, -⟩ := (node.injEq ..).mp hw
    exact Nat.succ_lt_succ (h.condition (by rw [hc]; rfl))
  · obtain ⟨-, hl, -, hr⟩ := (node.injEq ..).mp hw
    have hl := h.left lw hl _ _ hleft
    have hr := h.right rw hr _ _ hright
    rw [FilterNode.depth]
    omega

theorem Draft.Within.put {l : Leniency} {depth : Nat} {child : Doc → Except Fault WireNode}
    (hchild : ∀ d w, child d = .ok w → w.Within depth) (f : NodeField) (d : Doc) (a b : Draft)
    (ha : a.Within depth) (h : Draft.put l depth child f d a = .ok b) : b.Within depth := by
  cases f with
  | condition =>
    obtain ⟨c, hc, h⟩ := bind_eq_ok.mp h
    cases h
    refine { ha with condition := fun hsome => ?_ }
    obtain ⟨c, rfl⟩ := Option.isSome_iff_exists.mp hsome
    have hread := Doc.of_optional_eq_ok hc
    cases depth with
    | zero => cases hread
    | succ depth => exact Nat.succ_pos depth
  | left =>
    obtain ⟨w, hw, h⟩ := bind_eq_ok.mp h
    cases h
    refine { ha with left := ?_ }
    rintro w rfl
    exact hchild d w (Doc.of_optional_eq_ok hw)
  | logic =>
    obtain ⟨g, -, h⟩ := bind_eq_ok.mp h
    cases h
    exact { ha with }
  | right =>
    obtain ⟨w, hw, h⟩ := bind_eq_ok.mp h
    cases h
    refine { ha with right := ?_ }
    rintro w rfl
    exact hchild d w (Doc.of_optional_eq_ok hw)

/-- **The trees that come of a text** are no deeper than those that are read back. -/
theorem within_of_read {l : Leniency} {depth : Nat} {d : Doc} {w : WireNode}
    (h : WireNode.read l depth d = .ok w) : w.Within depth := by
  induction depth generalizing d w with
  | zero => cases h
  | succ depth ih =>
    obtain ⟨draft, hdraft, h⟩ := bind_eq_ok.mp h
    cases h
    have hempty : ({} : Draft).Within depth := ⟨nofun, nofun, nofun⟩
    exact (Doc.readRecord_keeps (Draft.Within.put fun _ _ => ih) hempty hdraft).node

end WireNode

end RowQuery
