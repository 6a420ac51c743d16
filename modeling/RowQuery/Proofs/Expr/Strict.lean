import RowQuery.Proofs.Expr.Truth

/-!
# Strict evaluation

Evaluation gives a value to every expression, and so it cannot tell a condition that is false from
one that is malformed. The strict evaluator takes the same steps in the same order and passes over
the same operands, but gives up in two places: where the value behind a flag is wanted and there is
none, and where a truth value is wanted and there is another one.

What it gives is what evaluation gives (`Expr.eval_of_strict`). So an expression needs no semantics
of its own to be well formed on a row: it is enough that strict evaluation does not give up there.

## Main definitions

* `Expr.strict`: strict evaluation.
* `Expr.Defined`, `Expr.Decided`: strict evaluation gives a value, or a truth value.
* `Expr.properties`: the places, names and types of the properties that an expression reads.

## Main results

* `Expr.eval_of_strict`: strict evaluation agrees with evaluation.
* `Expr.Decided.not`, `and`, `or`, `cond`: the connectives of decided conditions are decided, an
  operand that is passed over apart.
-/

namespace RowQuery

variable {ρ : Type}

namespace Expr

/-- The truth value, if it is one. -/
def decision? (v : Option Value) : Option Bool :=
  v.bind Value.asBool?

theorem decision?_eq_some_iff {v : Option Value} {b : Bool} :
    decision? v = some b ↔ v = some (.bool b) := by
  cases v with
  | none => simp [decision?]
  | some v => cases v <;> simp [decision?, Value.asBool?]

/-- Strict evaluation. It gives up where the value behind a flag is absent, and where an operand of
a connective or the test of a choice is no truth value. -/
def strict (s : Schema ρ) (row : ρ) : Expr → Option Value
  | constant v _ => some v
  | property id _ _ => some (s.read id row)
  | valueOf e => do
    let v ← e.strict s row
    if v.isNull then none else some v
  | isPresent e => do
    let v ← e.strict s row
    some (.bool !v.isNull)
  | compare op l r => do
    let v ← l.strict s row
    let w ← r.strict s row
    some (.bool (op.test v w))
  | member set value => do
    let items ← set.strict s row
    let v ← value.strict s row
    some (.bool (items.hasItem v))
  | text op target arg => do
    let v ← target.strict s row
    let w ← arg.strict s row
    some (.bool (v.bothTexts op.test w))
  | not e => do
    let a ← decision? (e.strict s row)
    some (.bool !a)
  | and l r => do
    match ← decision? (l.strict s row) with
    | true =>
      let b ← decision? (r.strict s row)
      some (.bool b)
    | false => some (.bool false)
  | or l r => do
    match ← decision? (l.strict s row) with
    | true => some (.bool true)
    | false =>
      let b ← decision? (r.strict s row)
      some (.bool b)
  | cond test yes no => do
    match ← decision? (test.strict s row) with
    | true => yes.strict s row
    | false => no.strict s row

/-- Strict evaluation gives a value. -/
def Defined (s : Schema ρ) (row : ρ) (e : Expr) : Prop :=
  ∃ v, e.strict s row = some v

/-- Strict evaluation gives a truth value. -/
def Decided (s : Schema ρ) (row : ρ) (e : Expr) : Prop :=
  ∃ b, e.strict s row = some (.bool b)

/-- The places, names and types of the properties that the expression reads. -/
def properties : Expr → List (Nat × String × DataType)
  | constant _ _ => []
  | property id name t => [(id, name, t)]
  | valueOf e | isPresent e | not e => e.properties
  | compare _ l r | member l r | text _ l r | and l r | or l r => l.properties ++ r.properties
  | cond test yes no => test.properties ++ yes.properties ++ no.properties

variable {s : Schema ρ} {row : ρ}

/-! ### Agreement -/

/-- The induction is on the expression. Where an operand is passed over, nothing is known of it, and
evaluation does not need it either. -/
theorem eval_of_strict {e : Expr} {v : Value} (h : e.strict s row = some v) :
    e.eval s row = v := by
  induction e generalizing v with
  | constant w t | property id name t =>
    cases h
    rfl
  | valueOf e ih =>
    obtain ⟨w, hw, h⟩ := Option.bind_eq_some_iff.mp h
    split at h
    · cases h
    · cases h
      rw [eval, ih hw]
  | isPresent e ih =>
    obtain ⟨w, hw, h⟩ := Option.bind_eq_some_iff.mp h
    cases h
    rw [eval, ih hw]
  | compare op l r ihl ihr =>
    obtain ⟨a, ha, h⟩ := Option.bind_eq_some_iff.mp h
    obtain ⟨b, hb, h⟩ := Option.bind_eq_some_iff.mp h
    cases h
    rw [eval, ihl ha, ihr hb]
  | member l r ihl ihr =>
    obtain ⟨a, ha, h⟩ := Option.bind_eq_some_iff.mp h
    obtain ⟨b, hb, h⟩ := Option.bind_eq_some_iff.mp h
    cases h
    rw [eval, ihl ha, ihr hb]
    cases a <;> rfl
  | text op l r ihl ihr =>
    obtain ⟨a, ha, h⟩ := Option.bind_eq_some_iff.mp h
    obtain ⟨b, hb, h⟩ := Option.bind_eq_some_iff.mp h
    cases h
    rw [eval, ihl ha, ihr hb]
    cases a <;> cases b <;> rfl
  | not e ih =>
    obtain ⟨a, ha, h⟩ := Option.bind_eq_some_iff.mp h
    cases h
    rw [eval, ih (decision?_eq_some_iff.mp ha), Value.isTrue_bool]
  | and l r ihl ihr =>
    obtain ⟨a, ha, h⟩ := Option.bind_eq_some_iff.mp h
    rw [eval, ihl (decision?_eq_some_iff.mp ha), Value.isTrue_bool]
    cases a with
    | false =>
      cases h
      rfl
    | true =>
      obtain ⟨b, hb, h⟩ := Option.bind_eq_some_iff.mp h
      cases h
      rw [ihr (decision?_eq_some_iff.mp hb), Value.isTrue_bool, Bool.true_and]
  | or l r ihl ihr =>
    obtain ⟨a, ha, h⟩ := Option.bind_eq_some_iff.mp h
    rw [eval, ihl (decision?_eq_some_iff.mp ha), Value.isTrue_bool]
    cases a with
    | true =>
      cases h
      rfl
    | false =>
      obtain ⟨b, hb, h⟩ := Option.bind_eq_some_iff.mp h
      cases h
      rw [ihr (decision?_eq_some_iff.mp hb), Value.isTrue_bool, Bool.false_or]
  | cond test yes no iht ihy ihn =>
    obtain ⟨a, ha, h⟩ := Option.bind_eq_some_iff.mp h
    rw [eval, iht (decision?_eq_some_iff.mp ha), Value.isTrue_bool]
    cases a with
    | true => exact ihy h
    | false => exact ihn h

/-! ### Decided conditions -/

/-- A decided condition is decided as it tests. -/
theorem Decided.strict_eq {e : Expr} (h : e.Decided s row) :
    e.strict s row = some (Value.bool (e.test s row)) := by
  obtain ⟨b, hb⟩ := h
  rw [hb, test, eval_of_strict hb, Value.isTrue_bool]

theorem defined_constant (v : Value) (t : DataType) : (constant v t).Defined s row :=
  ⟨v, rfl⟩

theorem defined_property (id : Nat) (name : String) (t : DataType) :
    (property id name t).Defined s row :=
  ⟨_, rfl⟩

theorem Defined.valueOf {e : Expr} (h : e.Defined s row) (hn : (e.eval s row).isNull = false) :
    (valueOf e).Defined s row := by
  obtain ⟨v, hv⟩ := h
  rw [eval_of_strict hv] at hn
  refine ⟨v, ?_⟩
  show (do let v ← e.strict s row; if v.isNull then none else some v) = some v
  rw [hv]
  exact if_neg (by simp [hn])

theorem decided_bool (b : Bool) : (bool b).Decided s row :=
  ⟨b, rfl⟩

theorem Defined.isPresent {e : Expr} (h : e.Defined s row) : (isPresent e).Decided s row := by
  obtain ⟨v, hv⟩ := h
  refine ⟨!v.isNull, ?_⟩
  show (e.strict s row >>= fun v => some (Value.bool !v.isNull)) = _
  rw [hv]
  rfl

theorem Defined.compare {l r : Expr} (hl : l.Defined s row) (hr : r.Defined s row)
    (op : CompareOp) : (compare op l r).Decided s row := by
  obtain ⟨v, hv⟩ := hl
  obtain ⟨w, hw⟩ := hr
  refine ⟨op.test v w, ?_⟩
  show (do let v ← l.strict s row; let w ← r.strict s row; some (Value.bool (op.test v w))) = _
  rw [hv, hw]
  rfl

theorem Defined.member {set value : Expr} (hs : set.Defined s row) (hv : value.Defined s row) :
    (member set value).Decided s row := by
  obtain ⟨items, hitems⟩ := hs
  obtain ⟨v, hv⟩ := hv
  refine ⟨items.hasItem v, ?_⟩
  show (do
    let items ← set.strict s row
    let v ← value.strict s row
    some (Value.bool (items.hasItem v))) = _
  rw [hitems, hv]
  rfl

theorem Defined.text {target arg : Expr} (ht : target.Defined s row) (ha : arg.Defined s row)
    (op : TextOp) : (text op target arg).Decided s row := by
  obtain ⟨v, hv⟩ := ht
  obtain ⟨w, hw⟩ := ha
  refine ⟨v.bothTexts op.test w, ?_⟩
  show (do
    let v ← target.strict s row
    let w ← arg.strict s row
    some (Value.bool (v.bothTexts op.test w))) = _
  rw [hv, hw]
  rfl

theorem Decided.not {e : Expr} (h : e.Decided s row) : (not e).Decided s row := by
  refine ⟨!e.test s row, ?_⟩
  show (decision? (e.strict s row) >>= fun a => some (Value.bool !a)) = _
  rw [h.strict_eq]
  rfl

/-- The right operand is passed over where the left one is false. -/
theorem Decided.and {l r : Expr} (hl : l.Decided s row)
    (hr : l.test s row = true → r.Decided s row) : (and l r).Decided s row := by
  show ∃ b, (decision? (l.strict s row) >>= _) = some (Value.bool b)
  rw [hl.strict_eq]
  cases hb : l.test s row with
  | false => exact ⟨false, rfl⟩
  | true =>
    refine ⟨r.test s row, ?_⟩
    show (decision? (r.strict s row) >>= _) = _
    rw [(hr hb).strict_eq]
    rfl

/-- The right operand is passed over where the left one is true. -/
theorem Decided.or {l r : Expr} (hl : l.Decided s row)
    (hr : l.test s row = false → r.Decided s row) : (or l r).Decided s row := by
  show ∃ b, (decision? (l.strict s row) >>= _) = some (Value.bool b)
  rw [hl.strict_eq]
  cases hb : l.test s row with
  | true => exact ⟨true, rfl⟩
  | false =>
    refine ⟨r.test s row, ?_⟩
    show (decision? (r.strict s row) >>= _) = _
    rw [(hr hb).strict_eq]
    rfl

/-- One of the two conditions is passed over. -/
theorem Decided.cond {test yes no : Expr} (ht : test.Decided s row)
    (hy : test.test s row = true → yes.Decided s row)
    (hn : test.test s row = false → no.Decided s row) : (cond test yes no).Decided s row := by
  show ∃ b, (decision? (test.strict s row) >>= _) = some (Value.bool b)
  rw [ht.strict_eq]
  cases hb : test.test s row with
  | true => exact hy hb
  | false => exact hn hb

end Expr

end RowQuery
