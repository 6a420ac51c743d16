import RowQuery.Proofs.Filter.Acceptance
import RowQuery.Proofs.Filter.Guard

/-!
# The dual of a filter

Some operators come in pairs, one of which holds where the other one does not. A filter with such
operators has a dual: *and* and *or* change places, and so do the operators of each pair, while
properties, texts and overrides stay. The dual compiles when the filter does, and it is meant to say
the opposite.

## Where the dual is the negation

Negation is inside the guard. An absent cell meets neither an operator nor its partner, so where a
cell is absent a leaf and its dual both say no, and the dual of a filter is no negation of it. It is
one on each row that has a cell for every leaf. The two operators that ask for absence are exempt,
for they stand behind no guard.

The two are compared by what they mean, and no expression is looked at. The conditions that the
operators of a pair build differ in form: some are a negation of one another, some are two
comparisons.

## Main definitions

* `Operator.partner?`: the other operator of a pair.
* `Condition.dual`, `FilterNode.dual`: the dual of a condition and of a tree.
* `Condition.HasPartner`, `FilterNode.Paired`: the operators are ones that come in pairs.
* `Condition.Misses`: the row has no cell for a condition that does not ask for absence.

## Main results

* `Operator.holds_partner`: an operator holds where its partner does not.
* `FilterNode.leavesBelow_dual`: the leaves of the dual are the duals of the leaves.
* `FilterNode.Paired.meaning_dual`: where no cell is missing the dual means the opposite.
* `FilterNode.compileBelow_dual`: the dual compiles as the filter does and says the opposite.
-/

namespace RowQuery

variable {ρ : Type}

/-! ### Pairs of operators -/

namespace Operator

/-- The operator that holds where this one does not, if there is one. -/
def partner? : Operator → Option Operator
  | eq => some neq
  | neq => some eq
  | isIn => some notIn
  | notIn => some isIn
  | contains => some doesNotContain
  | doesNotContain => some contains
  | isNull => some isNotNull
  | isNotNull => some isNull
  | gt | gte | lt | lte | startsWith | endsWith => none

variable {a b : Operator}

theorem partner?_symm (h : a.partner? = some b) : b.partner? = some a := by
  cases a <;> cases h <;> rfl

theorem asksAbsence_partner (h : a.partner? = some b) : b.asksAbsence = a.asksAbsence := by
  cases a <;> cases h <;> rfl

theorem constantType_partner (h : a.partner? = some b) (t : DataType) :
    b.constantType t = a.constantType t := by
  cases a <;> cases h <;> rfl

theorem acceptsKind_partner (h : a.partner? = some b) (k : Kind) :
    b.acceptsKind k = a.acceptsKind k := by
  cases a <;> cases h <;> rfl

/-- **An operator holds where its partner does not**, between any two values. -/
theorem holds_partner (h : a.partner? = some b) (cell constant : Value) :
    b.holds cell constant = !a.holds cell constant := by
  cases a <;> cases h <;> simp [holds]

/-- With the rule on absence this is so wherever the rule does not apply. -/
theorem meaning_partner (h : a.partner? = some b) {t : DataType} {cell : Value}
    (ha : (a.asksAbsence || !(t.mayBeAbsent && cell.isNull)) = true) (constant : Value) :
    b.meaning t cell constant = !a.meaning t cell constant := by
  rw [meaning, meaning, asksAbsence_partner h, ha, holds_partner h]
  rfl

end Operator

/-! ### Dual conditions -/

namespace Condition

/-- The condition with the partner of its operator, if the operator has one. -/
def dual (c : Condition) : Condition :=
  match (Operator.ofName? c.operator).bind Operator.partner? with
  | some op => { c with operator := op.name }
  | none => c

/-- The operator of the condition has a partner. -/
def HasPartner (c : Condition) : Prop :=
  ∃ a b : Operator, a.name = c.operator ∧ a.partner? = some b

/-- The row has no cell for the condition, and the condition does not ask for absence. -/
def Misses (c : Condition) (s : Schema ρ) (row : ρ) : Prop :=
  ∃ p op, c.Names s p op ∧ op.asksAbsence = false ∧ p.type.mayBeAbsent = true ∧
    (p.get row).isNull = true

variable {c : Condition} {a b op : Operator} {s : Schema ρ} {p : Property ρ} {row : ρ}

theorem dual_eq (ha : a.name = c.operator) (hab : a.partner? = some b) :
    c.dual = { c with operator := b.name } := by
  rw [dual, Operator.ofName?_eq_some_iff.mpr ha, Option.bind_some, hab]

@[simp] theorem dual_property (c : Condition) : c.dual.property = c.property := by
  unfold dual
  split <;> rfl

@[simp] theorem dual_value (c : Condition) : c.dual.value = c.value := by
  unfold dual
  split <;> rfl

theorem dual_operator (ha : a.name = c.operator) (hab : a.partner? = some b) :
    b.name = c.dual.operator := by
  rw [dual_eq ha hab]

theorem HasPartner.dual (h : c.HasPartner) : c.dual.HasPartner := by
  obtain ⟨a, b, ha, hab⟩ := h
  exact ⟨b, a, dual_operator ha hab, Operator.partner?_symm hab⟩

theorem HasPartner.dual_dual (h : c.HasPartner) : c.dual.dual = c := by
  obtain ⟨a, b, ha, hab⟩ := h
  rw [dual_eq ha hab, dual_eq rfl (Operator.partner?_symm hab), ha]

theorem Names.dual (h : c.Names s p a) (hab : a.partner? = some b) : c.dual.Names s p b := by
  refine ⟨?_, dual_operator h.operator hab⟩
  rw [dual_property]
  exact h.property

/-- What the dual names, the condition names. -/
theorem HasPartner.names_of_dual (h : c.HasPartner) (hn : c.dual.Names s p op) :
    ∃ a, c.Names s p a ∧ a.partner? = some op := by
  obtain ⟨a, b, ha, hab⟩ := h.dual
  obtain rfl := Operator.name_injective (hn.operator.trans ha.symm)
  have hc := hn.dual hab
  rw [h.dual_dual] at hc
  exact ⟨b, hc, Operator.partner?_symm hab⟩

/-- Whatever is asked of the dual is asked of the condition. -/
theorem HasPartner.meets_dual (h : c.HasPartner) {d : Option Deserializer} {r : Requirement}
    (hm : c.Meets s d r) : c.dual.Meets s d r := by
  cases r with
  | property => simpa only [Meets, dual_property] using hm
  | operator =>
    obtain ⟨a, b, ha, hab⟩ := h
    exact ⟨b, dual_operator ha hab⟩
  | absence =>
    intro p op hn hask
    obtain ⟨a, ha, hab⟩ := h.names_of_dual hn
    rw [Operator.asksAbsence_partner hab] at hask
    exact hm p a ha hask
  | deserializer => exact hm
  | reading =>
    intro p op r hn hd
    obtain ⟨a, ha, hab⟩ := h.names_of_dual hn
    rw [dual_value, Operator.constantType_partner hab]
    exact hm p a r ha hd
  | kind =>
    intro p op hn
    obtain ⟨a, ha, hab⟩ := h.names_of_dual hn
    rw [Operator.acceptsKind_partner hab]
    exact hm p a ha

theorem HasPartner.meets_dual_iff (h : c.HasPartner) {d : Option Deserializer}
    {r : Requirement} : c.dual.Meets s d r ↔ c.Meets s d r := by
  constructor
  · intro hm
    have hback := h.dual.meets_dual hm
    rwa [h.dual_dual] at hback
  · exact h.meets_dual

theorem HasPartner.misses_dual (h : c.HasPartner) (hm : c.Misses s row) :
    c.dual.Misses s row := by
  obtain ⟨p, op, hn, hask, habsent⟩ := hm
  obtain ⟨a, b, ha, hab⟩ := h
  obtain rfl := Operator.name_injective (hn.operator.trans ha.symm)
  rw [← Operator.asksAbsence_partner hab] at hask
  exact ⟨p, b, hn.dual hab, hask, habsent⟩

/-- **Where its cell is not missing the dual of a condition means the opposite.** It has a meaning
where the condition has one. -/
theorem HasPartner.meaning_dual (h : c.HasPartner) (d : Option Deserializer)
    (hm : ¬ c.Misses s row) : c.dual.meaning s d row = (c.meaning s d row).map Bool.not := by
  obtain ⟨a, b, ha, hab⟩ := h
  have hop : Operator.ofName? c.operator = some a := Operator.ofName?_eq_some_iff.mpr ha
  have hop' : Operator.ofName? b.name = some b := Operator.ofName?_eq_some_iff.mpr rfl
  rw [dual_eq ha hab]
  cases hp : s.find? c.property with
  | none => simp only [meaning, hp, Option.map_none]
  | some found =>
    obtain ⟨i, p⟩ := found
    cases d with
    | none => simp only [meaning, hp, hop, hop', Option.map_none]
    | some d =>
      simp only [meaning, hp, hop, hop', Operator.constantType_partner hab]
      cases d.read c.value (a.constantType p.type) with
      | error f => rfl
      | ok v =>
        have hcell : (a.asksAbsence || !(p.type.mayBeAbsent && (p.get row).isNull)) = true := by
          by_contra hno
          simp only [Bool.or_eq_true, Bool.not_eq_true', not_or, Bool.not_eq_true,
            Bool.not_eq_false, Bool.and_eq_true] at hno
          exact hm ⟨p, a, names_iff.mpr ⟨⟨i, hp⟩, ha⟩, hno.1, hno.2⟩
        exact congrArg some (Operator.meaning_partner hab hcell v)

end Condition

/-! ### Dual trees -/

/-- *And* for *or*, and *or* for *and*. -/
def Logic.dual : Logic → Logic
  | .and => .or
  | .or => .and

theorem Logic.apply_dual (g : Logic) (a b : Bool) : g.dual.apply (!a) (!b) = !g.apply a b := by
  cases g with
  | and => exact (Bool.not_and a b).symm
  | or => exact (Bool.not_or a b).symm

namespace Leaf

/-- The leaf with the dual of its condition. -/
def dual (l : Leaf) : Leaf := { l with condition := l.condition.dual }

/-- Under the built-in operators a leaf stands behind a guard unless it asks for absence. -/
theorem misses_of_condition {s : Schema ρ} {config : Config} {row : ρ} {l : Leaf}
    (hs : (l.scope config).Builtin) (hm : l.condition.Misses s row) : l.Misses s config row := by
  obtain ⟨p, op, hn, hask, habsent, hnull⟩ := hm
  obtain ⟨⟨i, hp⟩, hop⟩ := Condition.names_iff.mp hn
  refine ⟨i, p, op.handler, hp, ?_, ?_, DataType.mayBeAbsent_iff.mp habsent, hnull⟩
  · rw [Scope.handler?_builtin hs, Operator.ofName?_eq_some_iff.mpr hop]
    rfl
  · rw [Operator.unguarded_handler, hask]

end Leaf

namespace FilterNode

/-- The tree with *and* and *or* exchanged and the dual of each condition. -/
def dual : FilterNode → FilterNode
  | leaf c o => leaf c.dual o
  | branch l g r o => branch l.dual g.dual r.dual o

/-- All operators of the tree come in pairs. -/
def Paired : FilterNode → Prop
  | leaf c _ => c.HasPartner
  | branch l _ r _ => l.Paired ∧ r.Paired

variable {n : FilterNode} {s : Schema ρ} {config : Config} {inherited : Overrides} {row : ρ}

theorem KeepsOperators.dual (h : n.KeepsOperators) : n.dual.KeepsOperators := by
  induction n with
  | leaf c o => exact h
  | branch l g r o ihl ihr => exact ⟨h.1, ihl h.2.1, ihr h.2.2⟩

/-- The leaves of the dual are the duals of the leaves. -/
theorem leavesBelow_dual (n : FilterNode) (above : List Overrides) (steps : List Side) :
    n.dual.leavesBelow above steps = (n.leavesBelow above steps).map Leaf.dual := by
  induction n generalizing above steps with
  | leaf c o => rfl
  | branch l g r o ihl ihr => rw [dual, leavesBelow, leavesBelow, ihl, ihr, List.map_append]

theorem Paired.hasPartner (h : n.Paired) {above : List Overrides} {steps : List Side} {l : Leaf}
    (hl : l ∈ n.leavesBelow above steps) : l.condition.HasPartner := by
  induction n generalizing above steps with
  | leaf c o =>
    rw [leavesBelow, List.mem_singleton] at hl
    subst hl
    exact h
  | branch left g right o ihl ihr =>
    rw [leavesBelow, List.mem_append] at hl
    rcases hl with hl | hl
    · exact ihl h.1 hl
    · exact ihr h.2 hl

/-- **Where no cell is missing the dual means the opposite.** The induction is on the tree, below a
chain of nodes and some steps down; these matter only in that they name the leaves. -/
theorem Paired.meaning_dual (h : n.Paired) (d : Option Deserializer) {above : List Overrides}
    {steps : List Side} (hm : ∀ l ∈ n.leavesBelow above steps, ¬ l.condition.Misses s row) :
    n.dual.meaning s d row = (n.meaning s d row).map Bool.not := by
  induction n generalizing d above steps with
  | leaf c o => exact Condition.HasPartner.meaning_dual h _ (hm _ List.mem_cons_self)
  | branch l g r o ihl ihr =>
    rw [leavesBelow] at hm
    obtain ⟨hl, hr⟩ := List.forall_mem_append.mp hm
    rw [dual, meaning, meaning, ihl h.1 _ hl, ihr h.2 _ hr]
    cases l.meaning s (o.deserializer.or d) row with
    | none => rfl
    | some a =>
      cases r.meaning s (o.deserializer.or d) row with
      | none => rfl
      | some b => exact congrArg some (Logic.apply_dual g a b)

/-- **The dual of a filter says the opposite.** It compiles when the filter does. On each row with a
cell for every leaf that does not ask for absence it is true where the filter is false. Where the
cell of such a leaf is absent, neither the leaf nor its dual is true. -/
theorem compileBelow_dual (hc : config.operators = .builtin) (hi : inherited.operators = none)
    (hn : n.KeepsOperators) (hp : n.Paired) :
    let compiled := n.compileBelow s config inherited
    let opposite := n.dual.compileBelow s config inherited
    ((∃ e, compiled.outcome = .ok e) ↔ ∃ e, opposite.outcome = .ok e) ∧
      (∀ e e', compiled.outcome = .ok e → opposite.outcome = .ok e' → ∀ row,
        (∀ l ∈ n.leaves inherited, ¬ l.condition.Misses s row) →
          e'.test s row = !e.test s row) ∧
      n.dual.leaves inherited = (n.leaves inherited).map Leaf.dual ∧
      ∀ l ∈ n.leaves inherited, ∀ row, l.condition.Misses s row →
        (∀ e, (l.compile s config).outcome = .ok e → e.test s row = false) ∧
          ∀ e, (l.dual.compile s config).outcome = .ok e → e.test s row = false := by
  intro compiled opposite
  have hleaves : n.dual.leaves inherited = (n.leaves inherited).map Leaf.dual :=
    leavesBelow_dual n [inherited] []
  refine ⟨?_, ?_, hleaves, ?_⟩
  · rw [exists_outcome_compileBelow_iff hc hi hn, exists_outcome_compileBelow_iff hc hi hn.dual,
      hleaves, List.forall_mem_map]
    refine forall₂_congr fun l hl => forall_congr' fun r => ?_
    exact (Condition.HasPartner.meets_dual_iff (hp.hasPartner hl)).symm
  · intro e e' he he' row hm
    have hs : (Scope.mk config inherited).Builtin := ⟨hc, hi⟩
    have htest := meaning_eq_test_of_compile hs hn he row
    have htest' := meaning_eq_test_of_compile hs hn.dual he' row
    rw [hp.meaning_dual _ hm, htest] at htest'
    exact (Option.some.inj htest').symm
  · intro l hl row hm
    have hs : (l.scope config).Builtin := builtin_of_mem_leaves hc hi hn hl
    have hm' : l.dual.condition.Misses s row := (hp.hasPartner hl).misses_dual hm
    constructor
    · intro e he
      exact Leaf.test_of_misses he (Leaf.misses_of_condition hs hm)
    · intro e he
      exact Leaf.test_of_misses he (Leaf.misses_of_condition hs hm')

/-- A row with a cell is kept by one of the two. One without a cell is kept neither by the first
leaf nor by the dual of that. -/
theorem compileBelow_dual_ranked :
    let s : Schema (Option Int64) :=
      ⟨"Item", [⟨"Rank", ⟨.nullable, .int⟩, fun row => row.elim .null .int⟩]⟩
    let n : FilterNode :=
      .branch (.leaf ⟨"rank", "notin", "[7]"⟩ .none) .and (.leaf ⟨"rank", "isnotnull", "0"⟩ .none)
        .none
    n.KeepsOperators ∧ n.Paired ∧
      (∃ e e', (n.compileBelow s .json .none).outcome = .ok e ∧
        (n.dual.compileBelow s .json .none).outcome = .ok e' ∧
        e.test s (some 3) = true ∧ e'.test s (some 3) = !e.test s (some 3)) ∧
      ∃ l ∈ n.leaves .none, l.condition.Misses s none ∧
        ∃ e e', (l.compile s .json).outcome = .ok e ∧ (l.dual.compile s .json).outcome = .ok e' ∧
          e.test s none = false ∧ e'.test s none = false := by
  intro s n
  have hn : n.KeepsOperators := ⟨rfl, rfl, rfl⟩
  have hp : n.Paired := ⟨⟨.notIn, .isIn, rfl, rfl⟩, ⟨.isNotNull, .isNull, rfl, rfl⟩⟩
  obtain ⟨hcompiles, hopposite, -, habsent⟩ :=
    @compileBelow_dual _ n s .json .none rfl rfl hn hp
  have hl : ⟨[.left], ⟨"rank", "notin", "[7]"⟩, .none⟩ ∈ n.leaves .none := by
    simp [n, leaves, leavesBelow, Overrides.nearest, Overrides.none]
  have hmiss : (⟨"rank", "notin", "[7]"⟩ : Condition).Misses s none :=
    ⟨⟨"Rank", ⟨.nullable, .int⟩, fun row => row.elim .null .int⟩, .notIn, ⟨rfl, rfl⟩, rfl, rfl, rfl⟩
  have hranked : ∀ c : Condition, ¬ c.Misses s (some 3) := by
    rintro c ⟨p, op, hnames, -, -, hnull⟩
    obtain rfl := List.mem_singleton.mp (List.mem_of_find?_eq_some hnames.property)
    cases hnull
  obtain ⟨e, he⟩ : ∃ e, (n.compileBelow s .json .none).outcome = .ok e := ⟨_, rfl⟩
  obtain ⟨e', he'⟩ := hcompiles.mp ⟨e, he⟩
  have htest : e.test s (some 3) = true := by
    cases he
    rfl
  refine ⟨hn, hp, ⟨e, e', he, he', htest, ?_⟩, _, hl, hmiss, _, _, rfl, rfl, ?_, ?_⟩
  · exact hopposite e e' he he' (some 3) fun l _ => hranked l.condition
  · exact (habsent _ hl none hmiss).1 _ rfl
  · exact (habsent _ hl none hmiss).2 _ rfl

end FilterNode

end RowQuery
