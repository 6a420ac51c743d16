import RowQuery.Filter.Compile
import RowQuery.Proofs.Expr.Truth
import RowQuery.Proofs.Outcome
import RowQuery.Proofs.Schema.Lookup

/-!
# One leaf of a filter

A leaf is located, its text is read, its operator builds a condition, and the condition goes behind
its guard. Each step can fail. `Condition.Locating` and `Condition.Compiling` list the ways in which
this can end, each with all that is known then, and later proofs are by cases on them. None of them
opens the steps again.

## Absence

The guard is the one place where absence matters: behind it a condition is true where it was true
without it, except that it is false on an absent cell. Reading the present value and reading the
cell itself give the same, so a condition on the present value is a condition on the cell.

## Main definitions

* `Handler.Accepts`: the operator can be used with a property of a type.
* `Condition.Locating`, `Condition.Compiling`: the ways in which locating and compiling a leaf end.
* `Located.question`: what a located leaf asks its deserializer.

## Main results

* `Condition.locating`, `Condition.compiling`: they end in one of those ways.
* `Condition.outcome_compile_eq_ok_iff`: when a leaf compiles, and to which condition.
* `Condition.questions_compile`: a leaf asks once, and only if it is located.
* `Handler.operand_of_flagged`, `Handler.guarded_of_bare`: the two decisions on absence.
* `Handler.test_guarded`: a condition behind its guard.
-/

namespace RowQuery

variable {ρ : Type}

/-- The operator can be used with a property of the type: there is absence, or it needs none. -/
def Handler.Accepts (h : Handler) (t : DataType) : Prop :=
  h.needsAbsence = true → t.absence ≠ .never

theorem Handler.not_accepts_iff {h : Handler} {t : DataType} :
    ¬ h.Accepts t ↔ (h.needsAbsence && t.absence == .never) = true := by
  simp [Handler.Accepts]

/-- The question of a located leaf to its deserializer. -/
def Located.question (l : Located ρ) (c : Condition) : Question :=
  ⟨l.deserializer.label, c.value, l.target⟩

/-- The same as an event. -/
def Located.call (l : Located ρ) (c : Condition) : Event :=
  .call l.deserializer.label c.value l.target

namespace Condition

/-! ### Locating -/

/-- The ways in which locating a leaf ends, in the order in which they are tried. -/
inductive Locating (c : Condition) (s : Schema ρ) (scope : Scope) (path : String) :
    Except QueryError (Located ρ) → Prop where
  | noProperty (hp : s.find? c.property = none) :
    Locating c s scope path (.error (.propertyNotFound c.property s.name))
  | noOperator {i : Nat} {p : Property ρ} (hp : s.find? c.property = some (i, p))
      (hh : scope.handler? c.operator = none) :
    Locating c s scope path
      (.error (.unknownOperator c.operator path scope.overrides.operators.isSome))
  | notAccepted {i : Nat} {p : Property ρ} {h : Handler} (hp : s.find? c.property = some (i, p))
      (hh : scope.handler? c.operator = some h) (ha : ¬ h.Accepts p.type) :
    Locating c s scope path (.error (.notNullable p.name p.type.display (c.context path)))
  | noDeserializer {i : Nat} {p : Property ρ} {h : Handler} (hp : s.find? c.property = some (i, p))
      (hh : scope.handler? c.operator = some h) (ha : h.Accepts p.type)
      (hd : scope.deserializer? = none) :
    Locating c s scope path (.error (.missingDeserializer p.name c.value path))
  | found {i : Nat} {p : Property ρ} {h : Handler} {d : Deserializer}
      (hp : s.find? c.property = some (i, p)) (hh : scope.handler? c.operator = some h)
      (ha : h.Accepts p.type) (hd : scope.deserializer? = some d) :
    Locating c s scope path (.ok ⟨i, p, h, d⟩)

theorem locating (c : Condition) (s : Schema ρ) (scope : Scope) (path : String) :
    Locating c s scope path (c.locate s scope path) := by
  rw [locate, Schema.locate]
  cases hp : s.find? c.property with
  | none => exact .noProperty hp
  | some found =>
    obtain ⟨i, p⟩ := found
    simp only [handler, bind, Except.bind]
    cases hh : scope.handler? c.operator with
    | none => exact .noOperator hp hh
    | some h =>
      by_cases ha : h.Accepts p.type
      · have hif : ¬ (h.needsAbsence && p.type.absence == .never) = true :=
          fun hr => Handler.not_accepts_iff.mpr hr ha
        simp only [if_neg hif, deserializer]
        cases hd : scope.deserializer? with
        | none => exact .noDeserializer hp hh ha hd
        | some d => exact .found hp hh ha hd
      · simp only [if_pos (Handler.not_accepts_iff.mp ha)]
        exact .notAccepted hp hh ha

variable {c : Condition} {s : Schema ρ} {scope : Scope} {path : String}

/-- What is known of a located leaf. -/
theorem of_locate_eq_ok {l : Located ρ} (h : c.locate s scope path = .ok l) :
    s.find? c.property = some (l.id, l.property) ∧ scope.handler? c.operator = some l.handler ∧
      l.handler.Accepts l.property.type ∧ scope.deserializer? = some l.deserializer := by
  have hl := locating c s scope path
  rw [h] at hl
  cases hl with
  | found hp hh ha hd => exact ⟨hp, hh, ha, hd⟩

/-- Where a leaf stands decides what its errors say, and nothing else. -/
theorem locate_of_path {l : Located ρ} (h : c.locate s scope path = .ok l) (other : String) :
    c.locate s scope other = .ok l := by
  obtain ⟨hp, hh, ha, hd⟩ := of_locate_eq_ok h
  have hl := locating c s scope other
  generalize c.locate s scope other = result at hl
  cases hl with
  | noProperty hp' => rw [hp'] at hp; cases hp
  | noOperator _ hh' => rw [hh'] at hh; cases hh
  | notAccepted hp' hh' ha' =>
    cases hp.symm.trans hp'
    cases hh.symm.trans hh'
    exact absurd ha ha'
  | noDeserializer _ _ _ hd' => rw [hd'] at hd; cases hd
  | found hp' hh' _ hd' =>
    cases hp.symm.trans hp'
    cases hh.symm.trans hh'
    cases hd.symm.trans hd'
    rfl

/-! ### Compiling -/

/-- The ways in which compiling a leaf ends, with all that happens on the way. -/
inductive Compiling (c : Condition) (s : Schema ρ) (scope : Scope) (path : String) :
    Traced Expr → Prop where
  | unlocated {e : QueryError} (hl : c.locate s scope path = .error e) :
    Compiling c s scope path ⟨[], .error e⟩
  | unread {l : Located ρ} {f : ReadFault} (hl : c.locate s scope path = .ok l)
      (hr : l.deserializer.read c.value l.target = .error f) :
    Compiling c s scope path ⟨[l.call c], .error (c.unreadable l path f)⟩
  | refused {l : Located ρ} {v : Value} {r : OperandError} (hl : c.locate s scope path = .ok l)
      (hr : l.deserializer.read c.value l.target = .ok v) (hb : l.condition v = .error r) :
    Compiling c s scope path ⟨[l.call c], .error (c.refused l path r)⟩
  | built {l : Located ρ} {v : Value} {b : Expr} (hl : c.locate s scope path = .ok l)
      (hr : l.deserializer.read c.value l.target = .ok v) (hb : l.condition v = .ok b) :
    Compiling c s scope path ⟨[l.call c, .log (c.record l path b)], .ok (l.guarded b)⟩

theorem compiling (c : Condition) (s : Schema ρ) (scope : Scope) (path : String) :
    Compiling c s scope path (c.compile s scope path) := by
  rw [compile]
  cases hl : c.locate s scope path with
  | error e => exact .unlocated hl
  | ok l =>
    rw [Traced.bind_ok (Traced.outcome_ofExcept _)]
    cases hr : l.deserializer.read c.value l.target with
    | error f =>
      have hask : (Traced.ask l.deserializer c.value l.target (c.unreadable l path)).outcome
          = .error (c.unreadable l path f) := by rw [Traced.outcome_ask, hr]; rfl
      rw [Traced.bind_error hask]
      exact .unread hl hr
    | ok v =>
      have hask : (Traced.ask l.deserializer c.value l.target (c.unreadable l path)).outcome
          = .ok v := by rw [Traced.outcome_ask, hr]; rfl
      rw [Traced.bind_ok hask]
      cases hb : l.condition v with
      | error r => exact .refused hl hr hb
      | ok b => exact .built hl hr hb

theorem outcome_compile_eq_ok_iff {e : Expr} :
    (c.compile s scope path).outcome = .ok e ↔ ∃ l v b, c.locate s scope path = .ok l ∧
      l.deserializer.read c.value l.target = .ok v ∧ l.condition v = .ok b ∧ e = l.guarded b := by
  have hc := compiling c s scope path
  generalize c.compile s scope path = t at hc
  cases hc with
  | unlocated hl => simp [hl]
  | unread hl hr => simp [hl, hr]
  | refused hl hr hb => simp [hl, hr, hb]
  | built hl hr hb => simp [hl, hr, hb, eq_comm]

theorem outcome_compile_of_path {e : Expr} (h : (c.compile s scope path).outcome = .ok e)
    (other : String) : (c.compile s scope other).outcome = .ok e := by
  obtain ⟨l, v, b, hl, hr, hb, rfl⟩ := outcome_compile_eq_ok_iff.mp h
  exact outcome_compile_eq_ok_iff.mpr ⟨l, v, b, locate_of_path hl other, hr, hb, rfl⟩

/-- **A leaf asks once, and only if it is located.** -/
theorem questions_compile :
    (c.compile s scope path).questions
      = match c.locate s scope path with
        | .ok l => [l.question c]
        | .error _ => [] := by
  have hc := compiling c s scope path
  generalize c.compile s scope path = t at hc
  cases hc with
  | unlocated hl => rw [hl]; rfl
  | unread hl hr => rw [hl]; rfl
  | refused hl hr hb => rw [hl]; rfl
  | built hl hr hb => rw [hl]; rfl

end Condition

/-! ### Behind the guard -/

namespace Handler

variable (h : Handler) (t : DataType) (s : Schema ρ) (row : ρ)

variable {h t} in
theorem operand_of_flagged (hg : h.unguarded = false) (ha : t.absence = .flagged) (access : Expr) :
    h.operand t access = .valueOf access := by
  simp [operand, hg, ha]

variable {h t} in
theorem operand_of_not_flagged (ha : t.absence ≠ .flagged) (access : Expr) :
    h.operand t access = access := by
  simp [operand, ha]

variable {h t} in
theorem operand_of_unguarded (hg : h.unguarded = true) (access : Expr) :
    h.operand t access = access := by
  simp [operand, hg]

variable {h t} in
/-- Where no guard is called for, the condition stands as it was built. -/
theorem guarded_of_bare (hb : h.unguarded = true ∨ t.absence = .never) (access condition : Expr) :
    h.guarded t access condition = condition := by
  rcases hb with hg | ha
  · simp [guarded, hg]
  · simp [guarded, ha]

/-- Reading the present value of a cell is reading the cell. -/
@[simp] theorem eval_operand (access : Expr) :
    (h.operand t access).eval s row = access.eval s row := by
  rw [operand]
  split <;> rfl

/-- **A condition behind its guard** is false on an absent cell, and otherwise as true as it was. -/
theorem test_guarded (access condition : Expr) :
    (h.guarded t access condition).test s row
      = ((h.unguarded || !(t.mayBeAbsent && (access.eval s row).isNull))
          && condition.test s row) := by
  obtain ⟨d, k⟩ := t
  rw [guarded]
  cases h.unguarded with
  | true => simp
  | false =>
    cases d <;>
      cases hn : (access.eval s row).isNull <;>
        simp [DataType.absence, DataType.mayBeAbsent, CompareOp.test, Expr.null, Expr.eval, hn]

end Handler

namespace Located

variable {l : Located ρ} {s : Schema ρ} {name : String} {row : ρ}

theorem eval_access (h : s.find? name = some (l.id, l.property)) :
    l.access.eval s row = l.property.get row :=
  Schema.read_of_find? h row

end Located

end RowQuery
