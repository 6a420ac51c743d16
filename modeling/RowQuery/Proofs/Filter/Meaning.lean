import RowQuery.Proofs.Filter.Leaf
import RowQuery.Proofs.Operator

/-!
# What a filter means

A filter has a meaning of its own, without any expression: a leaf asks its operator about the cell
of the row and the value that its text was read as, and a branch combines the answers of its trees.
Compiling a filter keeps that meaning.

A tree has a meaning only where each of its leaves has one, that is where the property and the
operator exist and some deserializer reads the text. That a compiled tree has a meaning at all is
part of the main result.

## Main definitions

* `FilterNode.KeepsOperators`: no node overrides the operators.
* `Condition.meaning`, `FilterNode.meaning`: what a leaf and a tree say of a row.

## Main results

* `Scope.handler?_builtin`: the operators in effect where nothing overrides the built-in ones.
* `Condition.meaning_eq_test_of_compile`: the condition of a leaf says what the leaf says.
* `FilterNode.meaning_eq_test`: the condition of a tree says what the tree says.
-/

namespace RowQuery

variable {ρ : Type}

/-! ### Meaning -/

/-- The answer of a branch from the answers of its trees. -/
def Logic.apply : Logic → Bool → Bool → Bool
  | .and, a, b => a && b
  | .or, a, b => a || b

/-- What a leaf says of a row, with a deserializer in effect. It says nothing where its property or
its operator does not exist or its text is not read. -/
def Condition.meaning (c : Condition) (s : Schema ρ) (d : Option Deserializer) (row : ρ) :
    Option Bool :=
  match s.find? c.property, Operator.ofName? c.operator, d with
  | some (_, p), some op, some d =>
    match d.read c.value (op.constantType p.type) with
    | .ok constant => some (op.meaning p.type (p.get row) constant)
    | .error _ => none
  | _, _, _ => none

namespace FilterNode

/-- What a tree says of a row, with a deserializer in effect above it. -/
def meaning (s : Schema ρ) : FilterNode → Option Deserializer → ρ → Option Bool
  | leaf c o, above, row => c.meaning s (o.deserializer.or above) row
  | branch l g r o, above, row =>
    match l.meaning s (o.deserializer.or above) row, r.meaning s (o.deserializer.or above) row with
    | some a, some b => some (g.apply a b)
    | _, _ => none

/-- No node overrides the operators. -/
def KeepsOperators : FilterNode → Prop
  | leaf _ o => o.operators = none
  | branch l _ r o => o.operators = none ∧ l.KeepsOperators ∧ r.KeepsOperators

end FilterNode

/-! ### Scopes with the built-in operators -/

namespace Scope

/-- The built-in operators are in effect, and nothing overrides them. -/
structure Builtin (scope : Scope) : Prop where
  config : scope.config.operators = .builtin
  overrides : scope.overrides.operators = none

theorem Builtin.enter {scope : Scope} (h : scope.Builtin) {own : Overrides}
    (ho : own.operators = none) : (scope.enter own).Builtin :=
  ⟨h.config, by simp [Scope.enter, Overrides.under, ho, h.overrides]⟩

theorem handler?_builtin {scope : Scope} (h : scope.Builtin) (name : String) :
    scope.handler? name = (Operator.ofName? name).map Operator.handler := by
  rw [handler?, h.overrides, h.config, Operator.get?_builtin]
  rfl

/-- The words of a node on the deserializer come before those above it. -/
theorem deserializer?_enter (scope : Scope) (own : Overrides) :
    (scope.enter own).deserializer? = own.deserializer.or scope.deserializer? := by
  simp [deserializer?, enter, Overrides.under, Option.or_assoc]

end Scope

/-! ### Compiling keeps the meaning -/

/-- The fourteen operators and the three ways of absence are settled by `Operator.test_of_build` and
`Handler.test_guarded`; what is left here is to see that both speak of the same cell and the same
constant. -/
theorem Condition.meaning_eq_test_of_compile {c : Condition} {s : Schema ρ} {scope : Scope}
    {path : String} {e : Expr} (hs : scope.Builtin)
    (he : (c.compile s scope path).outcome = .ok e) (row : ρ) :
    c.meaning s scope.deserializer? row = some (e.test s row) := by
  obtain ⟨l, v, b, hl, hr, hb, rfl⟩ := Condition.outcome_compile_eq_ok_iff.mp he
  obtain ⟨hp, hh, -, hd⟩ := Condition.of_locate_eq_ok hl
  rw [Scope.handler?_builtin hs] at hh
  obtain ⟨op, hop, hhandler⟩ := Option.map_eq_some_iff.mp hh
  have htarget : l.target = op.constantType l.property.type := by
    rw [Located.target, ← hhandler, Operator.constantType_handler]
  have hbuild : b.test s row = op.holds (l.property.get row) v := by
    rw [Located.condition, ← hhandler] at hb
    rw [Operator.test_of_build hb, Handler.eval_operand, Located.eval_access hp]
    rfl
  have hguard : (l.guarded b).test s row
      = op.meaning l.property.type (l.property.get row) v := by
    rw [Located.guarded, Handler.test_guarded, hbuild, Located.eval_access hp, ← hhandler,
      Operator.unguarded_handler]
    rfl
  rw [htarget] at hr
  simp only [meaning, hp, hop, hd, hr, hguard]

namespace FilterNode

theorem meaning_eq_test_of_compile {s : Schema ρ} {n : FilterNode} {scope : Scope} {path : String}
    {e : Expr} (hs : scope.Builtin) (hn : n.KeepsOperators)
    (he : (n.compile s scope path).outcome = .ok e) (row : ρ) :
    n.meaning s scope.deserializer? row = some (e.test s row) := by
  induction n generalizing scope path e with
  | leaf c o =>
    rw [meaning, ← Scope.deserializer?_enter]
    exact Condition.meaning_eq_test_of_compile (hs.enter hn) he row
  | branch l g r o ihl ihr =>
    obtain ⟨ho, hl, hr⟩ := hn
    obtain ⟨a, ha, he⟩ := Traced.outcome_bind_eq_ok.mp he
    obtain ⟨b, hb, he⟩ := Traced.outcome_bind_eq_ok.mp he
    cases he
    rw [meaning, ← Scope.deserializer?_enter, ihl (hs.enter ho) hl ha, ihr (hs.enter ho) hr hb]
    cases g <;> simp [Logic.join, Logic.apply]

/-- **A compiled filter says what the filter says.** Nothing is assumed of the schema, of the
deserializers or of the row; the only condition is that the operators are the built-in ones
throughout. -/
theorem meaning_eq_test {n : FilterNode} {s : Schema ρ} {config : Config} {inherited : Overrides}
    {e : Expr} (hc : config.operators = .builtin) (hi : inherited.operators = none)
    (hn : n.KeepsOperators) (he : (n.compileBelow s config inherited).outcome = .ok e) (row : ρ) :
    n.meaning s (inherited.deserializer.or config.deserializer) row = some (e.test s row) := by
  have hs : (Scope.mk config inherited).Builtin := ⟨hc, hi⟩
  exact meaning_eq_test_of_compile hs hn he row

/-- Two negated operators, on a row whose cell is absent. -/
theorem meaning_eq_test_absent :
    let s : Schema Value := ⟨"Item", [⟨"Rank", ⟨.nullable, .int⟩, id⟩]⟩
    let n : FilterNode :=
      .branch (.leaf ⟨"rank", "neq", "7"⟩ .none) .or (.leaf ⟨"RANK", "notin", "[7, 8]"⟩ .none) .none
    n.KeepsOperators ∧ ∃ e, (n.compileBelow s .json .none).outcome = .ok e ∧
      n.meaning s (some .json) .null = some (e.test s .null) := by
  intro s n
  obtain ⟨e, he⟩ : ∃ e, (n.compileBelow s .json .none).outcome = .ok e := ⟨_, rfl⟩
  have hn : n.KeepsOperators := ⟨rfl, rfl, rfl⟩
  exact ⟨hn, e, he, meaning_eq_test rfl rfl hn he .null⟩

end FilterNode

end RowQuery
