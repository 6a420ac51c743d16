import RowQuery.Proofs.Expr.Strict
import RowQuery.Proofs.Filter.Meaning

/-!
# Compiled filters are decided

Evaluation is permissive: it would let a condition read the value behind a flag that is not set, and
take any value for false that is not `true`. A filter under the built-in operators makes no use of
that. Its condition is decided on every row by strict evaluation, which gives up at either.

Whether an operand may be read depends on the row, so nothing of the kind can be said of the
condition that an operator builds. What can be said is that it reads its operands and nothing else,
and that it is decided wherever both are defined (`Expr.TestOf`). The guard sees to it that it is
evaluated on such rows only.

## Main definitions

* `Expr.TestOf`: the conditions that the built-in operators build.
* `Schema.Registers`: a property stands at a place under its name.

## Main results

* `Operator.testOf_of_build`: the built-in operators build such conditions.
* `Located.decided_guarded`: behind its guard, such a condition is decided on every row.
* `FilterNode.compileBelow_decided`: compiled filters are decided, are conditions by type, and read
  registered properties.
-/

namespace RowQuery

variable {ρ : Type}

/-! ### What operators build -/

/-- The condition is a test of a left read and a constant on the right, or the negation of one. -/
inductive Expr.TestOf (left right : Expr) : Expr → Prop where
  | compare (op : CompareOp) : TestOf left right (.compare op left right)
  | compareNull (op : CompareOp) (t : DataType) : TestOf left right (.compare op left (.null t))
  | member : TestOf left right (.member right left)
  | text (op : TextOp) : TestOf left right (.text op left right)
  | isPresent : TestOf left right (.isPresent left)
  | not {e : Expr} (h : TestOf left right e) : TestOf left right (.not e)

namespace Expr.TestOf

variable {left right e : Expr} {s : Schema ρ} {row : ρ}

theorem negateIf (h : TestOf left right e) (negated : Bool) :
    TestOf left right (Handler.negateIf negated e) := by
  cases negated with
  | false => exact h
  | true => exact h.not

theorem decided (h : TestOf left right e) (hl : left.Defined s row) (hr : right.Defined s row) :
    e.Decided s row := by
  induction h with
  | compare op => exact hl.compare hr op
  | compareNull op t => exact hl.compare (defined_constant .null t) op
  | member => exact hr.member hl
  | text op => exact hl.text hr op
  | isPresent => exact hl.isPresent
  | not _ ih => exact ih.not

theorem type_eq (h : TestOf left right e) : e.type = .bool := by
  cases h <;> rfl

theorem properties_subset (h : TestOf left right e) :
    e.properties ⊆ left.properties ++ right.properties := by
  induction h with
  | compare | text => exact List.Subset.refl _
  | compareNull | isPresent => simp [properties, null]
  | member => simp [properties]
  | not _ ih => exact ih

end Expr.TestOf

section Build

variable {present declared : DataType} {left right b : Expr}

theorem Handler.testOf_of_build_nullness {isNull : Bool}
    (h : (Handler.nullness isNull).build present declared left right = .ok b) :
    Expr.TestOf left right b := by
  obtain ⟨_, _, h⟩ := bind_eq_ok.mp h
  split at h
  · cases h
    exact Expr.TestOf.isPresent.negateIf isNull
  · cases h
    exact .compareNull _ declared
  · cases h

theorem Operator.testOf_of_build {op : Operator}
    (h : op.handler.build present declared left right = .ok b) : Expr.TestOf left right b := by
  cases op with
  | eq | neq | gt | gte | lt | lte =>
    rw [Handler.eq_of_build_comparison h]
    exact .compare _
  | isIn | notIn =>
    rw [Handler.eq_of_build_membership h]
    exact Expr.TestOf.member.negateIf _
  | contains | doesNotContain | startsWith | endsWith =>
    rw [Handler.eq_of_build_textual h]
    exact (Expr.TestOf.text _).negateIf _
  | isNull | isNotNull => exact Handler.testOf_of_build_nullness h

end Build

/-! ### One leaf -/

/-- The schema has a property of the name and type at the place, and finds it there by the name. -/
def Schema.Registers (s : Schema ρ) (q : Nat × String × DataType) : Prop :=
  ∃ p, s.property? q.1 = some p ∧ p.name = q.2.1 ∧ p.type = q.2.2 ∧ s.find? q.2.1 = some (q.1, p)

namespace Located

variable {l : Located ρ} {s : Schema ρ} {name : String}

theorem registers_access (hp : s.find? name = some (l.id, l.property)) :
    ∀ q ∈ l.access.properties, s.Registers q := by
  intro q hq
  rw [access, Expr.properties, List.mem_singleton] at hq
  subst hq
  exact ⟨l.property, Schema.property?_of_find? hp, rfl, rfl, Schema.find?_name hp⟩

/-- The operand reads behind a flag only where a guard on that flag stands before it. -/
theorem decided_guarded {v : Value} {t : DataType} {b : Expr}
    (hb : Expr.TestOf (l.handler.operand l.property.type l.access) (.constant v t) b) (row : ρ) :
    (l.guarded b).Decided s row := by
  have haccess : l.access.Defined s row := Expr.defined_property _ _ _
  have hconst : (Expr.constant v t).Defined s row := Expr.defined_constant v t
  cases hg : l.handler.unguarded with
  | true =>
    rw [Handler.operand_of_unguarded hg] at hb
    rw [guarded, Handler.guarded_of_bare (.inl hg)]
    exact hb.decided haccess hconst
  | false =>
    cases ha : l.property.type.absence with
    | never =>
      rw [Handler.operand_of_not_flagged (by simp [ha])] at hb
      rw [guarded, Handler.guarded_of_bare (.inr ha)]
      exact hb.decided haccess hconst
    | reference =>
      rw [Handler.operand_of_not_flagged (by simp [ha])] at hb
      simp only [guarded, Handler.guarded, hg, ha]
      exact .cond (haccess.compare (Expr.defined_constant .null _) .ne)
        (fun _ => hb.decided haccess hconst) (fun _ => Expr.decided_bool false)
    | flagged =>
      rw [Handler.operand_of_flagged hg ha] at hb
      simp only [guarded, Handler.guarded, hg, ha]
      refine .cond haccess.isPresent (fun hpresent => ?_) (fun _ => Expr.decided_bool false)
      rw [Expr.test_isPresent, Bool.not_eq_true'] at hpresent
      exact hb.decided (haccess.valueOf hpresent) hconst

theorem type_guarded {b : Expr} (hb : b.type = .bool) : (l.guarded b).type = .bool := by
  rw [guarded, Handler.guarded]
  split
  · exact hb
  · split <;> exact hb

theorem properties_operand (h : Handler) (t : DataType) (access : Expr) :
    (h.operand t access).properties = access.properties := by
  rw [Handler.operand]
  split <;> rfl

theorem properties_guarded_subset {b : Expr} (hb : b.properties ⊆ l.access.properties) :
    (l.guarded b).properties ⊆ l.access.properties := by
  rw [guarded, Handler.guarded]
  split
  · exact hb
  · split
    · simp [Expr.properties, Expr.bool, hb]
    · simp [Expr.properties, Expr.bool, Expr.null, hb]
    · exact hb

end Located

/-- A condition that never misleads: it is decided on every row, it is a condition by its type, and
it reads registered properties. -/
structure Expr.Sound (s : Schema ρ) (e : Expr) : Prop where
  decided : ∀ row, e.Decided s row
  type : e.type = .bool
  registered : ∀ q ∈ e.properties, s.Registers q

theorem Condition.sound_of_compile {c : Condition} {s : Schema ρ} {scope : Scope} {path : String}
    {e : Expr} (hs : scope.Builtin) (he : (c.compile s scope path).outcome = .ok e) :
    e.Sound s := by
  obtain ⟨l, v, b, hl, -, hb, rfl⟩ := Condition.outcome_compile_eq_ok_iff.mp he
  obtain ⟨hp, hh, -, -⟩ := Condition.of_locate_eq_ok hl
  rw [Scope.handler?_builtin hs] at hh
  obtain ⟨op, -, hhandler⟩ := Option.map_eq_some_iff.mp hh
  have htest : Expr.TestOf (l.handler.operand l.property.type l.access)
      (.constant v l.target) b := by
    rw [Located.condition] at hb
    rw [← hhandler] at hb ⊢
    exact Operator.testOf_of_build hb
  have hreads : b.properties ⊆ l.access.properties := by
    have h := htest.properties_subset
    rwa [Located.properties_operand, Expr.properties, List.append_nil] at h
  refine ⟨fun row => Located.decided_guarded htest row, Located.type_guarded htest.type_eq, ?_⟩
  intro q hq
  exact Located.registers_access hp q (Located.properties_guarded_subset hreads hq)

/-! ### Trees -/

namespace FilterNode

theorem sound_join {s : Schema ρ} {a b : Expr} (ha : a.Sound s) (hb : b.Sound s) (g : Logic) :
    (g.join a b).Sound s := by
  have hread : ∀ q ∈ a.properties ++ b.properties, s.Registers q := by
    intro q hq
    rcases List.mem_append.mp hq with hq | hq
    · exact ha.registered q hq
    · exact hb.registered q hq
  cases g with
  | and => exact ⟨fun row => (ha.decided row).and fun _ => hb.decided row, rfl, hread⟩
  | or => exact ⟨fun row => (ha.decided row).or fun _ => hb.decided row, rfl, hread⟩

theorem sound_of_compile {s : Schema ρ} {n : FilterNode} {scope : Scope} {path : String} {e : Expr}
    (hs : scope.Builtin) (hn : n.KeepsOperators) (he : (n.compile s scope path).outcome = .ok e) :
    e.Sound s := by
  induction n generalizing scope path e with
  | leaf c o => exact Condition.sound_of_compile (hs.enter hn) he
  | branch l g r o ihl ihr =>
    obtain ⟨ho, hl, hr⟩ := hn
    obtain ⟨a, ha, he⟩ := Traced.outcome_bind_eq_ok.mp he
    obtain ⟨b, hb, he⟩ := Traced.outcome_bind_eq_ok.mp he
    cases he
    exact sound_join (ihl (hs.enter ho) hl ha) (ihr (hs.enter ho) hr hb) g

/-- **Compiled filters are decided.** Under the built-in operators strict evaluation gives up on no
row, and its truth value is that of evaluation. The condition is one by its type, and each property
in it stands in the schema at that place, with that name and that type. -/
theorem compileBelow_decided {n : FilterNode} {s : Schema ρ} {config : Config}
    {inherited : Overrides} {e : Expr} (hc : config.operators = .builtin)
    (hi : inherited.operators = none) (hn : n.KeepsOperators)
    (he : (n.compileBelow s config inherited).outcome = .ok e) :
    (∀ row, ∃ b, e.strict s row = some (.bool b) ∧ e.eval s row = .bool b) ∧ e.type = .bool ∧
      ∀ q ∈ e.properties, s.Registers q := by
  have hs : (Scope.mk config inherited).Builtin := ⟨hc, hi⟩
  have hsound := sound_of_compile hs hn he
  refine ⟨fun row => ?_, hsound.type, hsound.registered⟩
  obtain ⟨b, hb⟩ := hsound.decided row
  exact ⟨b, hb, Expr.eval_of_strict hb⟩

/-- A negated operator behind the flag of an absent cell, beside one that asks for absence. -/
theorem compileBelow_decided_absent :
    let s : Schema Value := ⟨"Item", [⟨"Rank", ⟨.nullable, .int⟩, id⟩]⟩
    let pair : Deserializer := ⟨none, fun _ _ => .ok (.list [.int 7, .int 8])⟩
    let n : FilterNode :=
      .branch (.leaf ⟨"RANK", "notin", "[7, 8]"⟩ .none) .or (.leaf ⟨"rank", "isnull", ""⟩ .none)
        .none
    n.KeepsOperators ∧ ∃ e, (n.compileBelow s .builtin ⟨some pair, none⟩).outcome = .ok e ∧
      ∃ b, e.strict s .null = some (.bool b) ∧ e.eval s .null = .bool b := by
  intro s pair n
  obtain ⟨e, he⟩ : ∃ e, (n.compileBelow s .builtin ⟨some pair, none⟩).outcome = .ok e := ⟨_, rfl⟩
  have hn : n.KeepsOperators := ⟨rfl, rfl, rfl⟩
  exact ⟨hn, e, he, (compileBelow_decided rfl rfl hn he).1 .null⟩

end FilterNode

end RowQuery
