import RowQuery.Expr

/-!
# When an expression is true

An expression is true on a row when its value there is the truth value `true`. For each form of
condition this comes down to the truth of its parts, or to the values of its operands where these
are no conditions.

## Main definitions

* `Value.bothTexts`, `Value.hasItem`: the two tests that only some kinds of values can meet.

## Main results

* `Expr.test_not`, `test_and`, `test_or`, `test_cond`: the connectives, by the truth of their parts.
* `Expr.test_compare`, `test_isPresent`, `test_member`, `test_text`: the tests, by the values of
  their operands.
* `Value.equals_null`: equality with an absent value is absence.
-/

namespace RowQuery

variable {ρ : Type}

namespace Value

/-- Both values are texts, and the relation holds between them. -/
def bothTexts (r : String → String → Bool) : Value → Value → Bool
  | text a, text b => r a b
  | _, _ => false

/-- The first value is a list with an item equal to the second one. -/
def hasItem : Value → Value → Bool
  | list items, v => items.any fun item => item.equals v
  | _, _ => false

@[simp] theorem isTrue_bool (b : Bool) : (bool b).isTrue = b := by
  cases b <;> rfl

@[simp] theorem equals_null (v : Value) : v.equals null = v.isNull := by
  cases v <;> rfl

end Value

namespace Expr

variable (s : Schema ρ) (row : ρ)

@[simp] theorem test_bool (b : Bool) : (bool b).test s row = b :=
  Value.isTrue_bool b

@[simp] theorem test_not (e : Expr) : (not e).test s row = !e.test s row :=
  Value.isTrue_bool _

@[simp] theorem test_and (l r : Expr) : (and l r).test s row = (l.test s row && r.test s row) :=
  Value.isTrue_bool _

@[simp] theorem test_or (l r : Expr) : (or l r).test s row = (l.test s row || r.test s row) :=
  Value.isTrue_bool _

@[simp] theorem test_cond (c yes no : Expr) :
    (cond c yes no).test s row = if c.test s row then yes.test s row else no.test s row :=
  apply_ite Value.isTrue _ _ _

@[simp] theorem test_isPresent (e : Expr) :
    (isPresent e).test s row = !(e.eval s row).isNull :=
  Value.isTrue_bool _

@[simp] theorem test_compare (op : CompareOp) (l r : Expr) :
    (compare op l r).test s row = op.test (l.eval s row) (r.eval s row) :=
  Value.isTrue_bool _

@[simp] theorem test_member (set value : Expr) :
    (member set value).test s row = (set.eval s row).hasItem (value.eval s row) := by
  simp only [test, eval, Value.hasItem]
  cases set.eval s row <;> simp [Value.asList?]

@[simp] theorem test_text (op : TextOp) (target arg : Expr) :
    (text op target arg).test s row
      = (target.eval s row).bothTexts op.test (arg.eval s row) := by
  simp only [test, eval, Value.bothTexts]
  cases target.eval s row <;> cases arg.eval s row <;> simp [Value.asText?]

end Expr

end RowQuery
