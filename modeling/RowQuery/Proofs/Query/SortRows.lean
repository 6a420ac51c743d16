import RowQuery.Proofs.Expr.Truth
import RowQuery.Proofs.OrderStep
import RowQuery.Proofs.Query.StableSort
import RowQuery.Proofs.Value.SortOrder
import RowQuery.Query

/-!
# Sorting typed rows

The keys of a row are computed once and sorted with it. That is sorting the rows by a comparison of
rows, the lexicographic one over the keys.

A key that is a property, or the test that a property is present, takes values of one declared type
on typed rows. The comparison of rows by such keys is therefore a total preorder on typed rows, and
the laws of stable sorting hold for them.

## Main definitions

* `OrderStep.compareOn`: two rows by one step.
* `Query.lexicographic`: two rows by a chain of steps.

## Main results

* `Schema.SortsBy.holds`: a sort key has values of one type on typed rows.
* `Query.lexicographic_preorders`: the comparison by a chain is a total preorder on typed rows.
* `Query.sortRows_eq`: rows are sorted stably by that comparison.
* `Query.filter_sortRows`, `Query.sortRows_sortRows`, `Query.sortRows_append`: a filter before or
  after, a chain before a longer one, and a chain after another one.
* `Query.sortRows_extend`: the same for the chain of two lists of keys.
-/

namespace RowQuery

variable {ρ : Type}

/-! ### Keys -/

/-- The test that a property is present says whether its cell is. -/
theorem DataType.eval_of_presence? {t : DataType} {access e : Expr}
    (h : t.presence? access = some e) (s : Schema ρ) (row : ρ) :
    e.eval s row = .bool !(access.eval s row).isNull := by
  rw [presence?] at h
  cases ht : t.absence with
  | never => rw [ht] at h; cases h
  | flagged =>
    rw [ht] at h
    cases h
    rfl
  | reference =>
    rw [ht] at h
    cases h
    show Value.bool (!(access.eval s row).equals .null) = _
    rw [Value.equals_null]

theorem Schema.SortsBy.holds {s : Schema ρ} {e : Expr} (h : s.SortsBy e) :
    ∃ t : DataType, ∀ row, s.Typed row → t.Holds (e.eval s row) := by
  cases h with
  | @property i p h =>
    refine ⟨p.type, fun row hrow => ?_⟩
    rw [Expr.eval, Schema.read_of_property? h]
    exact hrow p (List.mem_of_getElem? h)
  | presence h he =>
    refine ⟨.bool, fun row _ => ?_⟩
    rw [DataType.eval_of_presence? he]
    exact .scalar rfl (.bool _)

namespace OrderStep

/-- Two rows by the step. -/
def compareOn (s : Schema ρ) (k : OrderStep) (a b : ρ) : Ordering :=
  k.compare (k.key.eval s a) (k.key.eval s b)

theorem compareOn_preorders {s : Schema ρ} {k : OrderStep} (h : s.SortsBy k.key) :
    Preorders s.Typed (k.compareOn s) := by
  obtain ⟨t, ht⟩ := h.holds
  have hascending := (DataType.Holds.preorders t).comap (fun row => k.key.eval s row) ht
  cases hk : k.descending with
  | false =>
    have heq : k.compareOn s = fun a b => (k.key.eval s a).sortOrder (k.key.eval s b) := by
      funext a b
      simp [compareOn, compare, hk]
    rw [heq]
    exact hascending
  | true =>
    have heq : k.compareOn s
        = fun a b => ((k.key.eval s a).sortOrder (k.key.eval s b)).swap := by
      funext a b
      simp [compareOn, compare, hk]
    rw [heq]
    exact hascending.swapped

end OrderStep

namespace Query

/-! ### Chains -/

/-- Two rows by a chain: the first step that tells them apart decides. -/
def lexicographic (s : Schema ρ) : List OrderStep → ρ → ρ → Ordering
  | [], _, _ => .eq
  | k :: chain, a, b => (k.compareOn s a b).then (lexicographic s chain a b)

theorem compareRows_eq_lexicographic (s : Schema ρ) (chain : List OrderStep) (a b : ρ) :
    compareRows s chain a b = lexicographic s chain a b := by
  induction chain with
  | nil => rfl
  | cons k chain ih =>
    rw [lexicographic, ← ih]
    rfl

theorem lexicographic_append (s : Schema ρ) (chain more : List OrderStep) (a b : ρ) :
    lexicographic s (chain ++ more) a b
      = (lexicographic s chain a b).then (lexicographic s more a b) := by
  induction chain with
  | nil => rfl
  | cons k chain ih => rw [List.cons_append, lexicographic, ih, lexicographic, Ordering.then_assoc]

/-- Whether steps start an ordering or refine one is nothing to the comparison. -/
theorem lexicographic_map_refining (s : Schema ρ) (steps : List OrderStep) :
    lexicographic s (steps.map OrderStep.refining) = lexicographic s steps := by
  induction steps with
  | nil => rfl
  | cons o steps ih =>
    funext a b
    rw [List.map_cons, lexicographic, lexicographic, ih]
    rfl

theorem lexicographic_preorders {s : Schema ρ} {chain : List OrderStep}
    (h : ∀ k ∈ chain, s.SortsBy k.key) : Preorders s.Typed (lexicographic s chain) := by
  induction chain with
  | nil => exact .const
  | cons k chain ih =>
    obtain ⟨hk, hchain⟩ := List.forall_mem_cons.mp h
    exact (OrderStep.compareOn_preorders hk).lex (ih hchain)

/-! ### Sorting -/

/-- The keys that are carried along drop out again, and rows without keys are left as they are. -/
theorem sortRows_eq (s : Schema ρ) (chain : List OrderStep) (rows : List ρ) :
    sortRows s chain rows = stableSort (lexicographic s chain) rows := by
  cases chain with
  | nil => exact (stableSort_const rows).symm
  | cons k chain =>
    have hcmp : lexicographic s (k :: chain) = compareRows s (k :: chain) := by
      funext a b
      exact (compareRows_eq_lexicographic s (k :: chain) a b).symm
    rw [hcmp, sortRows, if_neg (by simp), ← map_stableSort, List.map_map]
    exact List.map_id _

/-- **Filtering before or after sorting.** -/
theorem filter_sortRows {s : Schema ρ} {chain : List OrderStep} {rows : List ρ}
    (hchain : ∀ k ∈ chain, s.SortsBy k.key) (hrows : ∀ row ∈ rows, s.Typed row) (p : ρ → Bool) :
    (sortRows s chain rows).filter p = sortRows s chain (rows.filter p) := by
  rw [sortRows_eq, sortRows_eq, (lexicographic_preorders hchain).filter_stableSort hrows]

/-- **A longer chain absorbs its start.** -/
theorem sortRows_sortRows {s : Schema ρ} {chain more : List OrderStep} {rows : List ρ}
    (hchain : ∀ k ∈ chain ++ more, s.SortsBy k.key) (hrows : ∀ row ∈ rows, s.Typed row) :
    sortRows s (chain ++ more) (sortRows s chain rows) = sortRows s (chain ++ more) rows := by
  have hstart : ∀ k ∈ chain, s.SortsBy k.key := fun k hk => hchain k (List.mem_append_left _ hk)
  rw [sortRows_eq, sortRows_eq, sortRows_eq]
  refine (lexicographic_preorders hstart).stableSort_stableSort (lexicographic_preorders hchain)
    hrows fun a b h => ?_
  rw [lexicographic_append, Ordering.then_eq_eq] at h
  exact h.1

/-- **Sorting by a chain and then by another one** is sorting by the later one with the earlier one
behind it. -/
theorem sortRows_append {s : Schema ρ} {chain more : List OrderStep} {rows : List ρ}
    (hchain : ∀ k ∈ chain, s.SortsBy k.key) (hmore : ∀ k ∈ more, s.SortsBy k.key)
    (hrows : ∀ row ∈ rows, s.Typed row) :
    sortRows s (chain ++ more) rows = sortRows s chain (sortRows s more rows) := by
  rw [sortRows_eq, sortRows_eq, sortRows_eq, (lexicographic_preorders hmore).stableSort_then
    (lexicographic_preorders hchain) hrows]
  congr 1
  funext a b
  exact lexicographic_append s chain more a b

/-- **Sorting by a chain with another one behind it** is sorting by the one behind it and then by
the chain. -/
theorem sortRows_extend {steps more : List OrderStep} {rows : List ρ}
    (hsteps : ∀ o ∈ steps, s.SortsBy o.key) (hmore : ∀ o ∈ more, s.SortsBy o.key)
    (hrows : ∀ row ∈ rows, s.Typed row) :
    sortRows s (OrderStep.extend steps more) rows = sortRows s steps (sortRows s more rows) := by
  cases steps with
  | nil => rfl
  | cons o steps =>
    have hrefining : ∀ k ∈ more.map OrderStep.refining, s.SortsBy k.key := by
      intro k hk
      obtain ⟨m, hm, rfl⟩ := List.mem_map.mp hk
      exact hmore m hm
    have hflags : sortRows s (more.map OrderStep.refining) rows = sortRows s more rows := by
      rw [sortRows_eq, sortRows_eq, lexicographic_map_refining]
    rw [OrderStep.extend, sortRows_append hsteps hrefining hrows, hflags]

/-- The merge sort of the core library sorts typed rows in the same way. -/
theorem sortRows_eq_mergeSort {s : Schema ρ} {chain : List OrderStep} {rows : List ρ}
    (hchain : ∀ k ∈ chain, s.SortsBy k.key) (hrows : ∀ row ∈ rows, s.Typed row) :
    sortRows s chain rows = rows.mergeSort fun a b => (lexicographic s chain a b).isLE := by
  rw [sortRows_eq, (lexicographic_preorders hchain).stableSort_eq_mergeSort hrows]

theorem typed_sortRows {s : Schema ρ} {chain : List OrderStep} {rows : List ρ}
    (hrows : ∀ row ∈ rows, s.Typed row) : ∀ row ∈ sortRows s chain rows, s.Typed row :=
  fun row h => hrows row ((sortRows_perm s chain rows).mem_iff.mp h)

end Query

end RowQuery
