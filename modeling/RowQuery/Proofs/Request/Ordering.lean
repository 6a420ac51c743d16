import RowQuery.Proofs.Request.SortKeys
import RowQuery.Proofs.Value.CellOrder

/-!
# The order that sort keys ask for

A list of sort keys says how two rows compare without any expression: the cells of the first key's
property decide, unless they tie, and so on down the list; a descending key reverses the order of
its cells. That is how rows compare by the order steps that the keys compile to.

## Wanting absent values lowest

A key can ask for absent values to come lowest, and then a step on the presence of its property goes
before the property itself. It makes no difference to the comparison. Absent cells are the lowest
cells anyway, a presence test has `false` before `true`, and both steps have one direction.

## One ordering

The comparison is a total preorder on typed rows, so a list of rows has one stable ordering by it: a
permutation in order, in which rows that tie stand as they stood. Running a query that is sorted by
the keys gives that ordering.

## Main definitions

* `SortKey.compareOn`, `SortKey.compareRows`: two typed rows by a key, and by a list of keys.
* `SortKey.orderOn`, `SortKey.orderRows`: the same of any rows.
* `SortKey.PlacesAbsent`: absent cells come first, or last in a descending key.

## Main results

* `OrderStep.lexicographic_eq_orderRows`: comparing by the steps of some keys is comparing by the
  keys.
* `Query.addOrder_yields_stable_order`: sorting by keys yields the one stable ordering.
-/

namespace RowQuery

variable {ρ : Type} {s : Schema ρ}

/-! ### Rows by keys -/

namespace SortKey

/-- Two rows by the cells of the key's property, in the key's direction. A key without a property
tells no rows apart. -/
def compareOn (s : Schema ρ) (k : SortKey) (a b : ρ) : Ordering :=
  match s.find? k.property with
  | none => .eq
  | some (_, p) =>
    let order := (p.get a).cellOrder (p.get b)
    if k.descending then order.swap else order

/-- Two rows by a list of keys: the first one that tells them apart decides. -/
def compareRows (s : Schema ρ) : List SortKey → ρ → ρ → Ordering
  | [], _, _ => .eq
  | k :: keys, a, b => (k.compareOn s a b).then (compareRows s keys a b)

/-- The key has a property, and absent cells of it come first, or last if the key is descending. -/
def PlacesAbsent (s : Schema ρ) (k : SortKey) : Prop :=
  ∃ i p, s.find? k.property = some (i, p) ∧ ∀ a b, p.get a = .null → p.get b ≠ .null →
    k.compareOn s a b = if k.descending then .gt else .lt

/-- Two rows by the values of the key's property, whether or not they are values of its type. -/
def orderOn (s : Schema ρ) (k : SortKey) (a b : ρ) : Ordering :=
  match s.find? k.property with
  | none => .eq
  | some (_, p) =>
    let order := (p.get a).sortOrder (p.get b)
    if k.descending then order.swap else order

/-- Two rows by a list of keys, whether or not they are typed. -/
def orderRows (s : Schema ρ) : List SortKey → ρ → ρ → Ordering
  | [], _, _ => .eq
  | k :: keys, a, b => (k.orderOn s a b).then (orderRows s keys a b)

theorem orderOn_eq (k : SortKey) {a b : ρ} (ha : s.Typed a) (hb : s.Typed b) :
    k.orderOn s a b = k.compareOn s a b := by
  rw [orderOn, compareOn]
  cases hp : s.find? k.property with
  | none => rfl
  | some found =>
    have hmem : found.2 ∈ s.properties := Schema.mem_of_find? hp
    simp only [(ha _ hmem).sortOrder_eq (hb _ hmem)]

theorem orderRows_eq {keys : List SortKey} {a b : ρ} (ha : s.Typed a) (hb : s.Typed b) :
    orderRows s keys a b = compareRows s keys a b := by
  induction keys with
  | nil => rfl
  | cons k keys ih => rw [orderRows, compareRows, orderOn_eq k ha hb, ih]

theorem compareOn_of_absent {k : SortKey} {i : Nat} {p : Property ρ} {a b : ρ}
    (hp : s.find? k.property = some (i, p)) (ha : p.get a = .null) (hb : p.get b ≠ .null) :
    k.compareOn s a b = if k.descending then .gt else .lt := by
  have hlt : (p.get a).cellOrder (p.get b) = .lt := by
    rw [ha]
    cases h : p.get b with
    | null => exact absurd h hb
    | _ => rfl
  simp only [compareOn, hp, hlt]
  rfl

end SortKey

/-! ### Keys and their steps -/

/-- The presence of two values does not tell apart what their order does not, and never differs from
it. -/
theorem Value.presence_then (v w : Value) :
    ((Value.bool !v.isNull).sortOrder (.bool !w.isNull)).then (v.sortOrder w) = v.sortOrder w := by
  cases v <;> cases w <;> rfl

namespace OrderStep

/-- The same in one direction or the other. -/
theorem presence_then (k : OrderStep) (v w : Value) :
    (k.compare (.bool !v.isNull) (.bool !w.isNull)).then (k.compare v w) = k.compare v w := by
  rw [compare, compare]
  cases k.descending with
  | false => exact Value.presence_then v w
  | true =>
    simp only [if_true]
    rw [← Ordering.swap_then, Value.presence_then]

/-- A step on the property of a key in the direction of the key, whether it starts an ordering or
not. -/
theorem compareOn_access {k : SortKey} {i : Nat} {p : Property ρ}
    (hp : s.find? k.property = some (i, p)) (secondary : Bool) (a b : ρ) :
    compareOn s ⟨.property i p.name p.type, k.descending, secondary⟩ a b = k.orderOn s a b := by
  have hread : ∀ row, (Expr.property i p.name p.type).eval s row = p.get row :=
    Schema.read_of_property? (Schema.property?_of_find? hp)
  rw [compareOn, compare, hread, hread]
  simp only [SortKey.orderOn, hp]

/-- The steps of one key compare rows as the key does. -/
theorem lexicographic_ofExprs {k : SortKey} {es : List Expr} (h : k.exprs s = .ok es)
    (secondary : Bool) (a b : ρ) :
    Query.lexicographic s (ofExprs k.descending secondary es) a b = k.orderOn s a b := by
  have hk := k.compiling s
  rw [h] at hk
  cases hk with
  | bare hp =>
    rw [ofExprs, ofExprs, Query.lexicographic, Query.lexicographic, Ordering.then_eq,
      compareOn_access hp]
  | presence hp _ hpresent =>
    have hpresence := DataType.eval_of_presence? hpresent s
    rw [ofExprs, ofExprs, ofExprs, Query.lexicographic, Query.lexicographic, Query.lexicographic,
      Ordering.then_eq, compareOn, hpresence, hpresence, ← compareOn_access hp true]
    exact presence_then _ _ _

/-- **The steps of a list of keys compare rows as the keys do.** -/
theorem lexicographic_eq_orderRows {secondary : Bool} {keys : List SortKey}
    {steps : List OrderStep} (h : chain s secondary keys = .ok steps) :
    Query.lexicographic s steps = SortKey.orderRows s keys := by
  funext a b
  induction keys generalizing secondary steps with
  | nil => cases h; rfl
  | cons k keys ih =>
    obtain ⟨es, rest, hes, hrest, rfl⟩ := chain_cons_eq_ok_iff.mp h
    rw [Query.lexicographic_append, lexicographic_ofExprs hes secondary, ih hrest,
      SortKey.orderRows]

/-- The same on typed rows, by the order of their cells. -/
theorem lexicographic_of_chain {secondary : Bool} {keys : List SortKey} {steps : List OrderStep}
    (h : chain s secondary keys = .ok steps) {a b : ρ} (ha : s.Typed a) (hb : s.Typed b) :
    Query.lexicographic s steps a b = SortKey.compareRows s keys a b := by
  rw [lexicographic_eq_orderRows h, SortKey.orderRows_eq ha hb]

end OrderStep

/-- The keys of a chain have their properties. -/
theorem SortKey.find?_of_chain {secondary : Bool} {keys : List SortKey} {steps : List OrderStep}
    (h : OrderStep.chain s secondary keys = .ok steps) :
    ∀ k ∈ keys, ∃ i p, s.find? k.property = some (i, p) := by
  intro k hk
  obtain ⟨i, p, hp, -⟩ := OrderStep.exists_chain_iff.mp ⟨steps, h⟩ k hk
  exact ⟨i, p, hp⟩

/-! ### The one ordering -/

namespace Query

theorem toList_new (s : Schema ρ) (rows : List ρ) : (new s rows).toList = rows := rfl

/-- **Sorting by keys yields the one stable ordering.** Rows are compared by the keys, and that is a
total preorder on typed rows. Running the sorted query gives a permutation of the rows that is in
order and in which rows that tie stand as they stood, and there is no other such permutation. -/
theorem addOrder_yields_stable_order {rows : List ρ} {keys : List SortKey}
    {steps : List OrderStep} (hrows : ∀ row ∈ rows, s.Typed row)
    (hkeys : (OrderStep.ofKeys keys s).outcome = .ok steps) :
    Preorders s.Typed (compareRows s steps) ∧
      (∀ a b, s.Typed a → s.Typed b → compareRows s steps a b = SortKey.compareRows s keys a b) ∧
      (∀ k ∈ keys, k.PlacesAbsent s) ∧
      ∃ q, ((new s rows).addOrder keys).outcome = .ok q ∧
        IsStableSort (compareRows s steps) rows q.toList ∧
        ∀ ys, IsStableSort (compareRows s steps) rows ys → ys = q.toList := by
  rw [OrderStep.outcome_ofKeys] at hkeys
  have hcmp : compareRows s steps = lexicographic s steps := by
    funext a b
    exact compareRows_eq_lexicographic s steps a b
  have hpre : Preorders s.Typed (lexicographic s steps) :=
    lexicographic_preorders (OrderStep.sortsBy_of_chain hkeys)
  have hplaces : ∀ k ∈ keys, k.PlacesAbsent s := by
    intro k hk
    obtain ⟨i, p, hp⟩ := SortKey.find?_of_chain hkeys k hk
    exact ⟨i, p, hp, fun a b => SortKey.compareOn_of_absent hp⟩
  have hlist : ((new s rows).pushOrders steps).toList
      = stableSort (lexicographic s steps) rows := by
    rw [toList_pushOrders _ (OrderStep.isChain_of_chain hkeys), toList_new]
    exact sortRows_eq s steps rows
  have hsorted := hpre.isStableSort_stableSort hrows
  rw [hcmp]
  refine ⟨hpre, fun a b ha hb => OrderStep.lexicographic_of_chain hkeys ha hb, hplaces,
    (new s rows).pushOrders steps, outcome_addOrder_eq_ok_iff.mpr ⟨steps, hkeys, rfl⟩, ?_⟩
  rw [hlist]
  exact ⟨hsorted, fun ys hys => hpre.isStableSort_unique hrows hys hsorted⟩

/-- A descending key that wants absent values lowest, on rows of which one is absent and two tie. -/
theorem addOrder_yields_stable_order_descending :
    let s : Schema (Value × Nat) := ⟨"Item", [⟨"Rank", ⟨.nullable, .int⟩, Prod.fst⟩]⟩
    let rows : List (Value × Nat) := [(.int 3, 0), (.null, 1), (.int 7, 2), (.int 3, 3)]
    let keys : List SortKey := [⟨"rank", true, true⟩]
    (∀ row ∈ rows, s.Typed row) ∧ ∃ steps, (OrderStep.ofKeys keys s).outcome = .ok steps ∧
      ∃ q, ((new s rows).addOrder keys).outcome = .ok q ∧
        IsStableSort (compareRows s steps) rows q.toList ∧
        q.toList = [(.int 7, 2), (.int 3, 0), (.int 3, 3), (.null, 1)] := by
  intro s rows keys
  have hrows : ∀ row ∈ rows, s.Typed row := by
    have hint : ∀ n, DataType.Holds ⟨.nullable, .int⟩ (.int n) := fun n => .scalar rfl (.int n)
    simp [rows, s, Schema.Typed, hint, DataType.Holds.absent]
  obtain ⟨steps, hkeys⟩ : ∃ steps, (OrderStep.ofKeys keys s).outcome = .ok steps := ⟨_, rfl⟩
  obtain ⟨-, -, -, q, hq, hsorted, -⟩ := addOrder_yields_stable_order hrows hkeys
  have hresult : q.toList = [(.int 7, 2), (.int 3, 0), (.int 3, 3), (.null, 1)] := by
    cases hq
    rfl
  exact ⟨hrows, steps, hkeys, q, hq, hsorted, hresult⟩

end Query

end RowQuery
