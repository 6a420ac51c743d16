import RowQuery.Proofs.Query.AnySorting
import RowQuery.Proofs.Query.SortRows

/-!
# Plans that grow

A plan is built by putting steps behind it, so what a further step does to the rows is what one
wants to know of it. Running a plan goes through rows and keys that they are still to be sorted by;
both are determined by the steps so far, and a further step acts on them.

## What a further step does

* A paging step cuts the rows of the plan, whatever the plan is.
* The steps of a list of sort keys sort the rows of the plan, whatever the plan is: the first of
  them starts a new chain, so what was still to be sorted is sorted before.
* A filter filters the rows of the plan. It acts on rows that are not sorted yet, so here rows have
  to be typed and keys to be properties.

## Main definitions

* `Query.lateStep`, `Query.late`: rows and keys in the course of a plan, and at its end.
* `Query.pushOrders`: order steps behind a plan.
* `Query.Typed`: rows are typed, and order steps are by properties and their presence.

## Main results

* `Query.toList_eq_late`: the rows of a plan are those at its end, sorted.
* `Query.toList_push_skip`, `Query.toList_push_take`, `Query.toList_pushOrders`,
  `Query.toList_push_filter`: what a further step does.
* `Query.count_pushOrders`: sorting does not change the number of rows.
-/

namespace RowQuery

variable {ρ : Type} {s : Schema ρ}

namespace Query

/-! ### The end of a plan -/

/-- What a step makes of some rows and the keys that they are still to be sorted by. -/
def lateStep (s : Schema ρ) : List ρ × List OrderStep → Step ρ → List ρ × List OrderStep
  | (rows, keys), .filter p => (rows.filter p.holds, keys)
  | (rows, keys), .order o =>
    if o.secondary then (rows, keys ++ [o]) else (sortRows s keys rows, [o])
  | (rows, keys), .skip n => ((sortRows s keys rows).drop n, [])
  | (rows, keys), .take n => ((sortRows s keys rows).take n, [])

/-- The rows at the end of the plan, and the keys that they are still to be sorted by. -/
def late (q : Query ρ) : List ρ × List OrderStep :=
  q.steps.foldl (lateStep q.schema) (q.source, [])

theorem run_eq_foldl_lateStep (steps : List (Step ρ)) (rows : List ρ) (keys : List OrderStep) :
    run s steps rows keys
      = sortRows s (steps.foldl (lateStep s) (rows, keys)).2
          (steps.foldl (lateStep s) (rows, keys)).1 := by
  induction steps generalizing rows keys with
  | nil => rfl
  | cons step steps ih =>
    cases step with
    | filter p => exact ih (rows.filter p.holds) keys
    | order o =>
      rw [run, List.foldl_cons, lateStep]
      cases o.secondary with
      | false => exact ih (sortRows s keys rows) [o]
      | true => exact ih rows (keys ++ [o])
    | skip n => exact ih ((sortRows s keys rows).drop n) []
    | take n => exact ih ((sortRows s keys rows).take n) []

theorem toList_eq_late (q : Query ρ) : q.toList = sortRows q.schema q.late.2 q.late.1 :=
  run_eq_foldl_lateStep q.steps q.source []

theorem late_push (q : Query ρ) (step : Step ρ) :
    (q.push step).late = lateStep q.schema q.late step := by
  rw [late, push, List.foldl_append]
  rfl

/-! ### Paging steps -/

theorem toList_push_skip (q : Query ρ) (n : Nat) : (q.push (.skip n)).toList = q.toList.drop n := by
  rw [toList_eq_late, late_push, toList_eq_late]
  rfl

theorem toList_push_take (q : Query ρ) (n : Nat) : (q.push (.take n)).toList = q.toList.take n := by
  rw [toList_eq_late, late_push, toList_eq_late]
  rfl

/-! ### Order steps -/

/-- The query with some more order steps. -/
def pushOrders (q : Query ρ) (steps : List OrderStep) : Query ρ :=
  steps.foldl (fun q o => q.push (.order o)) q

theorem pushOrders_eq (q : Query ρ) (steps : List OrderStep) :
    q.pushOrders steps = { q with steps := q.steps ++ steps.map .order } := by
  induction steps generalizing q with
  | nil => simp [pushOrders]
  | cons o steps ih =>
    have htail := ih (q.push (.order o))
    rw [push, List.append_assoc] at htail
    exact htail

@[simp] theorem schema_pushOrders (q : Query ρ) (steps : List OrderStep) :
    (q.pushOrders steps).schema = q.schema := by
  rw [pushOrders_eq]

/-- Steps that refine are collected. -/
theorem late_pushOrders_of_secondary {q : Query ρ} {steps : List OrderStep}
    (h : ∀ o ∈ steps, o.secondary = true) :
    (q.pushOrders steps).late = (q.late.1, q.late.2 ++ steps) := by
  induction steps generalizing q with
  | nil => simp [pushOrders]
  | cons o steps ih =>
    obtain ⟨ho, hsteps⟩ := List.forall_mem_cons.mp h
    have htail := ih (q := q.push (.order o)) hsteps
    rw [late_push, lateStep, if_pos ho, List.append_assoc] at htail
    exact htail

/-- The first step of a chain sorts by all that was collected, and the chain is collected in its
place. -/
theorem late_pushOrders_cons {q : Query ρ} {o : OrderStep} {steps : List OrderStep}
    (h : OrderStep.IsChain (o :: steps)) :
    (q.pushOrders (o :: steps)).late = (q.toList, o :: steps) := by
  obtain ⟨ho, hsteps⟩ := h
  have htail := late_pushOrders_of_secondary (q := q.push (.order o)) hsteps
  rw [late_push, lateStep, ho, ← toList_eq_late] at htail
  exact htail

/-- **A chain of order steps sorts the rows of the plan.** -/
theorem toList_pushOrders (q : Query ρ) {steps : List OrderStep} (h : OrderStep.IsChain steps) :
    (q.pushOrders steps).toList = sortRows q.schema steps q.toList := by
  cases steps with
  | nil => rfl
  | cons o steps => rw [toList_eq_late, late_pushOrders_cons h, schema_pushOrders]

theorem toList_pushOrders_eq_stableSort (q : Query ρ) {steps : List OrderStep}
    (h : OrderStep.IsChain steps) : (q.pushOrders steps).toList
      = stableSort (lexicographic q.schema steps) q.toList := by
  rw [toList_pushOrders q h, sortRows_eq]

/-! ### Filters -/

/-- Rows are typed, and order steps are by properties and their presence. -/
structure Typed (q : Query ρ) : Prop where
  rows : ∀ row ∈ q.source, q.schema.Typed row
  keys : ∀ o, .order o ∈ q.steps → q.schema.SortsBy o.key

/-- Rows that are typed, and keys to sort them by. -/
structure LateTyped (s : Schema ρ) (state : List ρ × List OrderStep) : Prop where
  rows : ∀ row ∈ state.1, s.Typed row
  keys : ∀ k ∈ state.2, s.SortsBy k.key

theorem LateTyped.step {state : List ρ × List OrderStep} (h : LateTyped s state) {step : Step ρ}
    (hstep : ∀ o, step = .order o → s.SortsBy o.key) : LateTyped s (lateStep s state step) := by
  obtain ⟨rows, keys⟩ := state
  have hsorted : ∀ row ∈ sortRows s keys rows, s.Typed row := typed_sortRows h.rows
  cases step with
  | filter p => exact ⟨fun row hrow => h.rows row (List.mem_filter.mp hrow).1, h.keys⟩
  | order o =>
    have hone : ∀ k ∈ [o], s.SortsBy k.key := List.forall_mem_singleton.mpr (hstep o rfl)
    rw [lateStep]
    split
    · exact ⟨h.rows, List.forall_mem_append.mpr ⟨h.keys, hone⟩⟩
    · exact ⟨hsorted, hone⟩
  | skip n => exact ⟨fun row hrow => hsorted row (List.mem_of_mem_drop hrow), by simp [lateStep]⟩
  | take n => exact ⟨fun row hrow => hsorted row (List.mem_of_mem_take hrow), by simp [lateStep]⟩

theorem LateTyped.foldl {steps : List (Step ρ)} {state : List ρ × List OrderStep}
    (h : LateTyped s state) (hsteps : ∀ o, .order o ∈ steps → s.SortsBy o.key) :
    LateTyped s (steps.foldl (lateStep s) state) := by
  induction steps generalizing state with
  | nil => exact h
  | cons step steps ih =>
    refine ih (h.step ?_) fun o ho => hsteps o (List.mem_cons_of_mem _ ho)
    rintro o rfl
    exact hsteps o List.mem_cons_self

theorem Typed.late {q : Query ρ} (h : q.Typed) : LateTyped q.schema q.late :=
  LateTyped.foldl ⟨h.rows, by simp⟩ h.keys

/-- **A filter filters the rows of the plan.** -/
theorem toList_push_filter {q : Query ρ} (h : q.Typed) (p : Predicate ρ) :
    (q.push (.filter p)).toList = q.toList.filter p.holds := by
  rw [toList_eq_late, late_push, toList_eq_late]
  exact (filter_sortRows h.late.keys h.late.rows p.holds).symm

theorem Typed.push_filter {q : Query ρ} (h : q.Typed) (p : Predicate ρ) :
    (q.push (.filter p)).Typed :=
  ⟨h.rows, fun o ho => h.keys o (by simpa [push] using ho)⟩

theorem Typed.pushOrders {q : Query ρ} (h : q.Typed) {steps : List OrderStep}
    (hsteps : ∀ o ∈ steps, q.schema.SortsBy o.key) : (q.pushOrders steps).Typed := by
  rw [pushOrders_eq]
  refine ⟨h.rows, fun o ho => ?_⟩
  rcases List.mem_append.mp ho with ho | ho
  · exact h.keys o ho
  · obtain ⟨k, hk, heq⟩ := List.mem_map.mp ho
    cases heq
    exact hsteps _ hk

/-- The rows of a plan are rows of its source. -/
theorem typed_toList {q : Query ρ} (h : ∀ row ∈ q.source, q.schema.Typed row) :
    ∀ row ∈ q.toList, q.schema.Typed row := by
  intro row hrow
  rw [← toListBy_byKeys] at hrow
  exact h row ((runBy_subperm _ q.steps q.source []).subset hrow)

/-! ### Counting -/

/-- Sorting loses no rows and adds none. -/
theorem count_pushOrders (q : Query ρ) {steps : List OrderStep} (h : OrderStep.IsChain steps) :
    (q.pushOrders steps).count = q.count := by
  rw [← length_toList, toList_pushOrders q h, length_sortRows, length_toList]

end Query

end RowQuery
