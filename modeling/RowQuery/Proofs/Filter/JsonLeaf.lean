import RowQuery.Proofs.Filter.Acceptance

/-!
# A leaf with a JSON text

Under the configuration for JSON texts a leaf is a property, an operator and a text, and nothing
else has a say. It compiles where the operator accepts the kind of the property and the text is read
as the constant that the operator asks for. It then matches the rows whose cell is in the relation
of the operator to that constant.

So leaves on one property are compared without looking at a condition: what they have in common is
the cell, and what they differ in is the relation and perhaps the constant.

## Main definitions

* `Condition.Compiles`, `Condition.Matches`: the condition compiles as a filter of its own, and a
  row passes it.

## Main results

* `Condition.compiles_iff`, `Condition.matches_iff`: when a condition on a property compiles, and
  which rows it matches.
-/

namespace RowQuery

namespace Condition

variable {ρ : Type}

/-- The condition as a filter of its own, under the configuration for JSON texts. -/
def compileAlone (c : Condition) (s : Schema ρ) : Traced Expr :=
  (FilterNode.leaf c .none).compileBelow s .json .none

/-- The condition compiles as a filter of its own. -/
def Compiles (c : Condition) (s : Schema ρ) : Prop :=
  ∃ e, (c.compileAlone s).outcome = .ok e

/-- The condition compiles as a filter of its own, and the row passes it. -/
def Matches (c : Condition) (s : Schema ρ) (row : ρ) : Prop :=
  ∃ e, (c.compileAlone s).outcome = .ok e ∧ e.test s row = true

/-- The scope of a filter without overrides. -/
theorem builtin_json : (Scope.mk .json .none).Builtin :=
  ⟨rfl, rfl⟩

section

variable {c : Condition} {s : Schema ρ} {p : Property ρ} {op : Operator} {row : ρ}

theorem Names.compiles_iff (h : c.Names s p op) :
    c.Compiles s ↔ (op.asksAbsence = true → p.type.mayBeAbsent = true) ∧
      op.acceptsKind p.type.kind = true ∧
        ∃ v, (op.constantType p.type).readText c.value = .ok v := by
  have hall : c.Compiles s ↔ ∀ r, c.Meets s (some .json) r :=
    exists_outcome_compile_iff builtin_json
  rw [hall]
  constructor
  · intro hm
    exact ⟨hm .absence p op h, hm .kind p op h, hm .reading p op .json h rfl⟩
  · rintro ⟨habsence, hkind, hreading⟩ r
    cases r with
    | property => exact h.meets_property
    | operator => exact h.meets_operator
    | absence =>
      intro p' op' h'
      obtain ⟨rfl, rfl⟩ := h.unique h'
      exact habsence
    | deserializer => rfl
    | reading => exact h.meets_reading_iff.mpr hreading
    | kind => exact h.meets_kind_iff.mpr hkind

/-- The condition says of a row what its operator means, for the constant that its text is read
as. -/
theorem Names.test_eq (h : c.Names s p op) {e : Expr} (he : (c.compileAlone s).outcome = .ok e)
    {v : Value} (hv : (op.constantType p.type).readText c.value = .ok v) (row : ρ) :
    e.test s row = op.meaning p.type (p.get row) v := by
  obtain ⟨⟨i, hp⟩, hop⟩ := names_iff.mp h
  have hread : Deserializer.json.read c.value (op.constantType p.type) = .ok v := hv
  have hmeaning : c.meaning s (some .json) row = some (e.test s row) :=
    meaning_eq_test_of_compile builtin_json he row
  simp only [meaning, hp, Operator.ofName?_eq_some_iff.mpr hop, hread, Option.some.injEq]
    at hmeaning
  exact hmeaning.symm

theorem Names.matches_iff (h : c.Names s p op) :
    c.Matches s row ↔ c.Compiles s ∧
      ∃ v, (op.constantType p.type).readText c.value = .ok v ∧
        op.meaning p.type (p.get row) v = true := by
  constructor
  · rintro ⟨e, he, htest⟩
    have hcompiles : c.Compiles s := ⟨e, he⟩
    obtain ⟨-, -, v, hv⟩ := h.compiles_iff.mp hcompiles
    rw [h.test_eq he hv] at htest
    exact ⟨hcompiles, v, hv, htest⟩
  · rintro ⟨⟨e, he⟩, v, hv, hmeaning⟩
    rw [← h.test_eq he hv] at hmeaning
    exact ⟨e, he, hmeaning⟩

end

/-! ### Operators behind a guard

All operators but the two that ask for absence match present cells only. -/

section

variable {s : Schema ρ} {name raw : String} {i : Nat} {p : Property ρ} {op : Operator} {row : ρ}

/-- **When a condition on a property compiles.** -/
theorem compiles_iff (hp : s.find? name = some (i, p)) (hop : op.asksAbsence = false) :
    Compiles ⟨name, op.name, raw⟩ s ↔
      op.acceptsKind p.type.kind = true ∧ ∃ v, (op.constantType p.type).readText raw = .ok v := by
  have hn : Names ⟨name, op.name, raw⟩ s p op := names_iff.mpr ⟨⟨i, hp⟩, rfl⟩
  rw [hn.compiles_iff, hop]
  simp

/-- **Which rows a condition on a property matches.** -/
theorem matches_iff (hp : s.find? name = some (i, p)) (hop : op.asksAbsence = false) :
    Matches ⟨name, op.name, raw⟩ s row ↔
      op.acceptsKind p.type.kind = true ∧ (p.type.mayBeAbsent && (p.get row).isNull) = false ∧
        ∃ v, (op.constantType p.type).readText raw = .ok v ∧ op.holds (p.get row) v = true := by
  have hn : Names ⟨name, op.name, raw⟩ s p op := names_iff.mpr ⟨⟨i, hp⟩, rfl⟩
  rw [hn.matches_iff, hn.compiles_iff]
  simp only [Operator.meaning, hop, Bool.false_or, Bool.and_eq_true, Bool.not_eq_true']
  constructor
  · rintro ⟨⟨-, hkind, -⟩, v, hv, hpresent, hholds⟩
    exact ⟨hkind, hpresent, v, hv, hholds⟩
  · rintro ⟨hkind, hpresent, v, hv, hholds⟩
    exact ⟨⟨nofun, hkind, v, hv⟩, v, hv, hpresent, hholds⟩

/-- The same, once the text is read. -/
theorem matches_iff_of_read (hp : s.find? name = some (i, p)) (hop : op.asksAbsence = false)
    (hkind : op.acceptsKind p.type.kind = true) {v : Value}
    (hv : (op.constantType p.type).readText raw = .ok v) :
    Matches ⟨name, op.name, raw⟩ s row ↔
      (p.type.mayBeAbsent && (p.get row).isNull) = false ∧ op.holds (p.get row) v = true := by
  rw [matches_iff hp hop, hv]
  simp [hkind]

end

end Condition

end RowQuery
