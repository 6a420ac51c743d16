import RowQuery.Proofs.Query.SortRows

/-!
# A plan run step by step

A plan sorts late. Read from the start, a plan says something simpler: each step is done at once,
and an order step sorts the rows there and then, by all order steps of the chain that it belongs to.
The two readings give the same rows.

## The invariant

The late reading carries rows and keys that they are still to be sorted by. The eager one carries
the rows that come of that sorting, and the same keys as its chain. Each kind of step keeps the two
in this relation:

* a filter, because filtering commutes with stable sorting;
* an order step that refines the chain, because sorting by the longer chain makes up for having
  sorted by its start;
* an order step that starts a new chain, and a paging step, because there the late reading sorts as
  well.

Rows are typed and keys are what lists of sort keys compile to; otherwise the comparisons need not
fit together, and what comes of sorting depends on the rows that have been filtered out.

## Main definitions

* `Query.eagerStep`, `Query.eager`: a step done at once, and a plan run that way.

## Main results

* `Query.run_eq_foldl_eagerStep`: the invariant along a plan.
* `Query.toList_eq_eager`: both readings give the same rows.
-/

namespace RowQuery.Query

variable {ρ : Type} {s : Schema ρ}

/-- A step done at once, on rows and the chain of order steps that they are sorted by. -/
def eagerStep (s : Schema ρ) : List ρ × List OrderStep → Step ρ → List ρ × List OrderStep
  | (rows, chain), .filter p => (rows.filter p.holds, chain)
  | (rows, chain), .order o =>
    let chain := if o.secondary then chain ++ [o] else [o]
    (rows.mergeSort fun a b => (lexicographic s chain a b).isLE, chain)
  | (rows, _), .skip n => (rows.drop n, [])
  | (rows, _), .take n => (rows.take n, [])

/-- The rows of the plan, each step done at once. -/
def eager (q : Query ρ) : List ρ :=
  (q.steps.foldl (eagerStep q.schema) (q.source, [])).1

/-- An order step done at once, where the rows are sorted by the chain already. -/
theorem eagerStep_order {chain : List OrderStep} {rows : List ρ} {o : OrderStep}
    (hchain : ∀ k ∈ chain, s.SortsBy k.key) (ho : s.SortsBy o.key)
    (hrows : ∀ row ∈ rows, s.Typed row) :
    eagerStep s (sortRows s chain rows, chain) (.order o)
      = if o.secondary then (sortRows s (chain ++ [o]) rows, chain ++ [o])
        else (sortRows s [o] (sortRows s chain rows), [o]) := by
  have hsorted : ∀ row ∈ sortRows s chain rows, s.Typed row := typed_sortRows hrows
  have hone : ∀ k ∈ [o], s.SortsBy k.key := List.forall_mem_singleton.mpr ho
  have hlong : ∀ k ∈ chain ++ [o], s.SortsBy k.key :=
    List.forall_mem_append.mpr ⟨hchain, hone⟩
  rw [eagerStep]
  cases o.secondary with
  | false =>
    simp only [Bool.false_eq_true, if_false]
    rw [sortRows_eq_mergeSort hone hsorted]
  | true =>
    simp only [if_true]
    rw [← sortRows_sortRows hlong hrows, sortRows_eq_mergeSort hlong hsorted]

/-- The invariant along a plan, by induction on its steps. -/
theorem run_eq_foldl_eagerStep {steps : List (Step ρ)} {rows : List ρ} {chain : List OrderStep}
    (hsteps : ∀ o, .order o ∈ steps → s.SortsBy o.key) (hchain : ∀ k ∈ chain, s.SortsBy k.key)
    (hrows : ∀ row ∈ rows, s.Typed row) :
    run s steps rows chain = (steps.foldl (eagerStep s) (sortRows s chain rows, chain)).1 := by
  induction steps generalizing rows chain with
  | nil => rfl
  | cons step steps ih =>
    have hrest : ∀ o, .order o ∈ steps → s.SortsBy o.key :=
      fun o ho => hsteps o (List.mem_cons_of_mem _ ho)
    have hsorted : ∀ row ∈ sortRows s chain rows, s.Typed row := typed_sortRows hrows
    cases step with
    | filter p =>
      have hfiltered : ∀ row ∈ rows.filter p.holds, s.Typed row :=
        fun row h => hrows row (List.mem_filter.mp h).1
      rw [run, ih hrest hchain hfiltered, List.foldl_cons, eagerStep,
        filter_sortRows hchain hrows]
    | order o =>
      have ho : s.SortsBy o.key := hsteps o List.mem_cons_self
      have hone : ∀ k ∈ [o], s.SortsBy k.key := List.forall_mem_singleton.mpr ho
      rw [run, List.foldl_cons, eagerStep_order hchain ho hrows]
      cases o.secondary with
      | false => exact ih hrest hone hsorted
      | true => exact ih hrest (List.forall_mem_append.mpr ⟨hchain, hone⟩) hrows
    | skip n =>
      have hdropped : ∀ row ∈ (sortRows s chain rows).drop n, s.Typed row :=
        fun row h => hsorted row (List.mem_of_mem_drop h)
      exact ih hrest (by simp) hdropped
    | take n =>
      have htaken : ∀ row ∈ (sortRows s chain rows).take n, s.Typed row :=
        fun row h => hsorted row (List.mem_of_mem_take h)
      exact ih hrest (by simp) htaken

/-- **A plan runs as its steps read.** On typed rows, with order steps by properties and by their
presence in any order and direction between filters and paging steps, sorting late gives the rows
that sorting at once gives. -/
theorem toList_eq_eager {q : Query ρ} (hrows : ∀ row ∈ q.source, q.schema.Typed row)
    (hsteps : ∀ o, .order o ∈ q.steps → q.schema.SortsBy o.key) : q.toList = q.eager :=
  run_eq_foldl_eagerStep hsteps (by simp) hrows

/-- A filter and a paging step between order steps, with rows that tie and one that is absent. -/
theorem toList_eq_eager_paged :
    let s : Schema Value := ⟨"Item", [⟨"Rank", ⟨.nullable, .int⟩, id⟩]⟩
    let rank : Expr := .property 0 "Rank" ⟨.nullable, .int⟩
    let q : Query Value := ⟨s, [.int 3, .null, .int 7, .int 3],
      [.order ⟨.isPresent rank, true, false⟩,
        .filter ⟨s, .compare .ne rank (.constant (.int 7) ⟨.nullable, .int⟩)⟩,
        .order ⟨rank, false, true⟩, .skip 1, .order ⟨rank, false, true⟩]⟩
    (∀ row ∈ q.source, s.Typed row) ∧ (∀ o, .order o ∈ q.steps → s.SortsBy o.key) ∧
      q.toList = q.eager ∧ q.toList = [.null, .int 3] := by
  intro s rank q
  have hrows : ∀ row ∈ q.source, s.Typed row := by
    have hint : ∀ n, DataType.Holds ⟨.nullable, .int⟩ (.int n) := fun n => .scalar rfl (.int n)
    simp [q, s, Schema.Typed, hint, DataType.Holds.absent]
  have hsteps : ∀ o, .order o ∈ q.steps → s.SortsBy o.key := by
    have hp : s.property? 0 = some ⟨"Rank", ⟨.nullable, .int⟩, id⟩ := rfl
    have hrank : s.SortsBy rank := .property hp
    have hpresence : s.SortsBy (.isPresent rank) := .presence hp rfl
    intro o ho
    simp only [q, List.mem_cons, Step.order.injEq, reduceCtorEq, false_or, or_false,
      List.not_mem_nil] at ho
    rcases ho with rfl | rfl | rfl
    · exact hpresence
    · exact hrank
    · exact hrank
  have hresult : q.toList = [.null, .int 3] := rfl
  exact ⟨hrows, hsteps, toList_eq_eager hrows hsteps, hresult⟩

end RowQuery.Query
