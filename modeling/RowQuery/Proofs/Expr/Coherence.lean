import RowQuery.Expr
import RowQuery.Proofs.Value.Comparison

/-!
# The six comparisons

Two values are compared in six ways, and nothing keeps an expression from comparing values that are
absent, of different kinds, lists, or no numbers at all. Behind the six are two questions: how the
one value stands to the other, and whether they are equal. Each is answered by a recursion of its
own, so that the six belong together is a fact about both.

## Where the two questions part

If one value stands to another in some way, then they are equal exactly if that way is *equal*. If
it does not, neither of them is less, and they are not equal either, unless both are absent or both
are lists. These are equal without being compared, so neither is at least the other. On all other
pairs *greater or equal* is what its name says, and so is *less or equal*.

## Which values differ from themselves

A NaN does, and with it every list that has one anywhere inside. Nothing else does: variants have a
number whether or not it is defined, and the empty list and the absent value are equal to themselves
without being compared.

## Main definitions

* `Value.OccursIn`: a value is another one or occurs in an item of it.
* `CompareOp.swap`: the comparison that asks the same from the other side.

## Main results

* `Value.equals_self_iff`: a value equals itself if no NaN occurs in it.
* `CompareOp.test_swap`: each comparison from the other side.
* `CompareOp.gte_iff`, `CompareOp.lte_iff`: the two comparisons that are put together.
* `CompareOp.comparisons_cohere`: how the six belong together, on all values.
-/

namespace RowQuery

namespace Value

/-! ### What occurs in a value -/

/-- The value is the other one, or it occurs in an item of it. -/
inductive OccursIn (v : Value) : Value → Prop where
  | self : OccursIn v v
  | item {i : Value} {items : List Value} (hi : i ∈ items) (h : OccursIn v i) :
    OccursIn v (list items)

/-- No NaN occurs in the value. -/
def NaNFree (a : Value) : Prop :=
  ¬ ∃ v : Value, v.OccursIn a ∧ v.isNaN = true

theorem naNFree_list_iff {items : List Value} :
    (list items).NaNFree ↔ ∀ i ∈ items, i.NaNFree := by
  constructor
  · rintro h i hi ⟨v, hv, hnan⟩
    exact h ⟨v, .item hi hv, hnan⟩
  · rintro h ⟨v, hv, hnan⟩
    cases hv with
    | self => cases hnan
    | item hi hv => exact h _ hi ⟨v, hv, hnan⟩

/-- In a value that is no list nothing else occurs. -/
theorem naNFree_iff_of_asList? {a : Value} (h : a.asList? = none) :
    a.NaNFree ↔ a.isNaN = false := by
  constructor
  · intro hfree
    exact Bool.eq_false_iff.mpr fun hnan => hfree ⟨a, .self, hnan⟩
  · rintro hnumber ⟨v, hv, hnan⟩
    cases hv with
    | self =>
      rw [hnumber] at hnan
      cases hnan
    | item => cases h

/-! ### Equality with itself -/

/-- A value that is no list equals itself unless it is a NaN. -/
theorem equals_self_of_asList? {a : Value} (h : a.asList? = none) :
    a.equals a = true ↔ a.isNaN = false := by
  cases a with
  | list => cases h
  | null => exact iff_of_true rfl rfl
  | float x => exact beq_iff_eq.trans (Binary64.compare?_self_iff x)
  | instant t => simp [equals, compare?, isNaN, Instant.compare_self]
  | bool | int | text | enum => simp [equals, compare?, isNaN]

mutual

/-- **A value equals itself if no NaN occurs in it**, at any depth. -/
theorem equals_self_iff (a : Value) : a.equals a = true ↔ a.NaNFree := by
  cases a with
  | list items => exact (equalsItems_self_iff items).trans naNFree_list_iff.symm
  | _ => exact (equals_self_of_asList? rfl).trans (naNFree_iff_of_asList? rfl).symm

theorem equalsItems_self_iff (items : List Value) :
    equalsItems items items = true ↔ ∀ i ∈ items, i.NaNFree := by
  match items with
  | [] => simp [equalsItems]
  | i :: items =>
    rw [equalsItems, Bool.and_eq_true, equals_self_iff i, equalsItems_self_iff items,
      List.forall_mem_cons]

end

end Value

namespace CompareOp

/-! ### The other side -/

/-- The comparison that asks the same with the two values exchanged. -/
def swap : CompareOp → CompareOp
  | eq => eq
  | ne => ne
  | gt => lt
  | gte => lte
  | lt => gt
  | lte => gte

/-- **Each comparison can be read from the other side.** -/
theorem test_swap (op : CompareOp) (a b : Value) : op.swap.test b a = op.test a b := by
  have hcompare (o : Ordering) : (b.compare? a == some o.swap) = (a.compare? b == some o) := by
    rw [Bool.eq_iff_iff, beq_iff_eq, beq_iff_eq, Value.compare?_eq_some_swap_iff]
  cases op with
  | eq => exact Value.equals_comm b a
  | ne => exact congrArg Bool.not (Value.equals_comm b a)
  | gt => exact hcompare .gt
  | lt => exact hcompare .lt
  | gte => exact congrArg₂ Bool.or (hcompare .gt) (hcompare .eq)
  | lte => exact congrArg₂ Bool.or (hcompare .lt) (hcompare .eq)

/-! ### How they belong together -/

/-- **Greater or equal.** Absent values and lists can be equal, but they are not compared. -/
theorem gte_iff (a b : Value) :
    gte.test a b = true ↔ gt.test a b = true ∨ eq.test a b = true ∧ ¬ a.Uncompared b := by
  simp only [test, Bool.or_eq_true, beq_iff_eq, Value.compare?_eq_some_eq_iff]

/-- Two absent values are equal, and neither is at least the other. -/
example : eq.test .null .null = true ∧ gte.test .null .null = false := by decide

/-- **Less or equal**, which is *greater or equal* from the other side. -/
theorem lte_iff (a b : Value) :
    lte.test a b = true ↔ lt.test a b = true ∨ eq.test a b = true ∧ ¬ a.Uncompared b := by
  have hside : b.Uncompared a ↔ a.Uncompared b := ⟨.symm, .symm⟩
  rw [← test_swap lte a b, ← test_swap lt a b, ← test_swap eq a b, ← hside]
  exact gte_iff b a

/-- **At most one of the three holds.** Where the values are comparable it is the one that their
order names, and elsewhere only *equal* can hold. -/
theorem countP_test_le_one (a b : Value) : [lt, eq, gt].countP (·.test a b) ≤ 1 := by
  cases h : a.compare? b with
  | none =>
    have hlt : lt.test a b = false := by rw [test, h]; rfl
    have hgt : gt.test a b = false := by rw [test, h]; rfl
    cases heq : eq.test a b <;> simp [hlt, heq, hgt]
  | some o =>
    have heq : eq.test a b = (o == .eq) := Value.equals_of_compare? h
    have hlt : lt.test a b = (o == .lt) := by rw [test, h]; rfl
    have hgt : gt.test a b = (o == .gt) := by rw [test, h]; rfl
    cases o <;> simp [hlt, heq, hgt]

/-- **The comparisons are coherent**, on all values. How two values compare and whether they are
equal can be read from either side, and so can *less* and *less or equal*. *Not equal* is the
negation of *equal*, and at most one of *less*, *equal* and *greater* holds. The other two are put
together from these, but for absent values and lists. A value equals itself if no NaN occurs in
it. -/
theorem comparisons_cohere (a b : Value) :
    b.compare? a = (a.compare? b).map Ordering.swap ∧ a.equals b = b.equals a ∧
      ne.test a b = !eq.test a b ∧ lt.test a b = gt.test b a ∧ lte.test a b = gte.test b a ∧
      [lt, eq, gt].countP (·.test a b) ≤ 1 ∧
      (gte.test a b = true ↔ gt.test a b = true ∨ eq.test a b = true ∧ ¬ a.Uncompared b) ∧
      (lte.test a b = true ↔ lt.test a b = true ∨ eq.test a b = true ∧ ¬ a.Uncompared b) ∧
      (a.equals a = true ↔ ¬ ∃ v : Value, v.OccursIn a ∧ v.isNaN = true) := by
  refine ⟨Value.compare?_swap a b, Value.equals_comm a b, rfl, ?_, ?_, ?_, ?_, ?_, ?_⟩
  · exact (test_swap lt a b).symm
  · exact (test_swap lte a b).symm
  · exact countP_test_le_one a b
  · exact gte_iff a b
  · exact lte_iff a b
  · exact Value.equals_self_iff a

end CompareOp

end RowQuery
