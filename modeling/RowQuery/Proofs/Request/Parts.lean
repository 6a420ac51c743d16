import RowQuery.Proofs.Query.Plan
import RowQuery.Request

/-!
# The parts of a request

A request puts three parts behind a query: a filter, order steps and paging steps. The first two can
fail, each on its own account, and the third cannot. What a request makes of a query is therefore
said by what its filter and its sort keys compile to.

## Main definitions

* `Query.pushFilter`: a query behind a compiled filter, if there is one.
* `FilterNode.Compiles`: what a filter compiles to, if there is one.

## Main results

* `Query.outcome_addFilter_eq_ok_iff`, `Query.outcome_addOrder_eq_ok_iff`: when a part succeeds, and
  with which query.
* `Request.outcome_unpaged_eq_ok_iff`, `Request.outcome_plan_eq_ok_iff`: the same for the filter and
  the sort keys together, and for the whole request.
* `Request.outcome_plan`, `Request.outcome_planCounted`: paging adds to a success and keeps an
  error.
* `Query.toList_addPaging`: the rows behind the paging steps.
-/

namespace RowQuery

variable {ρ : Type}

/-! ### The filter -/

/-- A filter compiles to a predicate for the schema, and no filter to none. -/
inductive FilterNode.Compiles (s : Schema ρ) (config : Config) :
    Option FilterNode → Option (Predicate ρ) → Prop where
  | none : Compiles s config none none
  | some {n : FilterNode} {e : Expr} (h : (n.compileBelow s config .none).outcome = .ok e) :
    Compiles s config (some n) (some ⟨s, e⟩)

theorem FilterNode.outcome_predicate_eq_ok_iff {n : FilterNode} {s : Schema ρ} {config : Config}
    {p : Predicate ρ} : (n.predicate s config).outcome = .ok p ↔
      ∃ e, (n.compileBelow s config .none).outcome = .ok e ∧ p = ⟨s, e⟩ := by
  rw [predicate, Traced.outcome_bind_eq_ok]
  refine exists_congr fun e => and_congr_right fun _ => ?_
  show Except.ok (Predicate.mk s e) = Except.ok p ↔ _
  rw [Except.ok.injEq, eq_comm]

theorem FilterNode.Compiles.unique {s : Schema ρ} {config : Config} {filter : Option FilterNode}
    {p p' : Option (Predicate ρ)} (h : Compiles s config filter p)
    (h' : Compiles s config filter p') : p = p' := by
  cases h with
  | none =>
    cases h' with
    | none => rfl
  | some h =>
    cases h' with
    | some h' =>
      cases h.symm.trans h'
      rfl

namespace Query

/-- The query behind a predicate, if there is one. -/
def pushFilter (q : Query ρ) : Option (Predicate ρ) → Query ρ
  | none => q
  | some p => q.push (.filter p)

@[simp] theorem schema_pushFilter (q : Query ρ) (p : Option (Predicate ρ)) :
    (q.pushFilter p).schema = q.schema := by
  cases p <;> rfl

theorem Typed.pushFilter {q : Query ρ} (h : q.Typed) (p : Option (Predicate ρ)) :
    (q.pushFilter p).Typed := by
  cases p with
  | none => exact h
  | some p => exact h.push_filter p

/-- A row that no predicate is asked about is kept. -/
theorem toList_pushFilter {q : Query ρ} (h : q.Typed) (p : Option (Predicate ρ)) :
    (q.pushFilter p).toList = q.toList.filter fun row => p.all (·.holds row) := by
  cases p with
  | none => simp [pushFilter]
  | some p => exact toList_push_filter h p

theorem outcome_addFilter_eq_ok_iff {q q' : Query ρ} {filter : Option FilterNode}
    {config : Config} : (q.addFilter filter config).outcome = .ok q' ↔
      ∃ p, FilterNode.Compiles q.schema config filter p ∧ q' = q.pushFilter p := by
  cases filter with
  | none =>
    constructor
    · rintro ⟨⟩
      exact ⟨none, .none, rfl⟩
    · rintro ⟨_, ⟨⟩, rfl⟩
      rfl
  | some n =>
    rw [addFilter, Traced.outcome_bind_eq_ok]
    constructor
    · rintro ⟨p, hp, ⟨⟩⟩
      obtain ⟨e, he, rfl⟩ := FilterNode.outcome_predicate_eq_ok_iff.mp hp
      exact ⟨_, .some he, rfl⟩
    · rintro ⟨_, hp, rfl⟩
      cases hp with
      | some h => exact ⟨_, FilterNode.outcome_predicate_eq_ok_iff.mpr ⟨_, h, rfl⟩, rfl⟩

/-! ### The sort keys -/

end Query

/-- Leaving a log record changes nothing about the steps. -/
theorem OrderStep.outcome_ofKeys (keys : List SortKey) (s : Schema ρ) :
    (ofKeys keys s).outcome = chain s false keys := by
  rw [ofKeys, Traced.outcome_bind, Traced.outcome_ofExcept]
  cases chain s false keys with
  | error e => rfl
  | ok steps => cases steps <;> rfl

namespace Query

theorem outcome_addOrder_eq_ok_iff {q q' : Query ρ} {keys : List SortKey} :
    (q.addOrder keys).outcome = .ok q' ↔
      ∃ steps, OrderStep.chain q.schema false keys = .ok steps ∧ q' = q.pushOrders steps := by
  rw [addOrder, Traced.outcome_bind_eq_ok, OrderStep.outcome_ofKeys]
  refine exists_congr fun steps => and_congr_right fun _ => ?_
  show Except.ok (q.pushOrders steps) = Except.ok q' ↔ _
  rw [Except.ok.injEq, eq_comm]

/-! ### Paging -/

/-- **Paging cuts the rows.** Without a number of rows to keep all are kept. -/
theorem toList_addPaging (q : Query ρ) (skip take : Option Nat) :
    (q.addPaging skip take).toList
      = (take.elim id List.take) (q.toList.drop (skip.getD 0)) := by
  cases skip <;> cases take <;> simp [addPaging, toList_push_skip, toList_push_take]

end Query

/-! ### The whole -/

namespace Request

theorem outcome_unpaged_eq_ok_iff {r : QueryRequest} {q q' : Query ρ} {config : Config} :
    (r.unpaged q config).outcome = .ok q' ↔
      ∃ p steps, FilterNode.Compiles q.schema config r.filter p ∧
        OrderStep.chain q.schema false r.sort = .ok steps ∧
        q' = (q.pushFilter p).pushOrders steps := by
  rw [unpaged, Traced.outcome_bind_eq_ok]
  constructor
  · rintro ⟨q₁, h₁, h₂⟩
    obtain ⟨p, hp, rfl⟩ := Query.outcome_addFilter_eq_ok_iff.mp h₁
    obtain ⟨steps, hsteps, rfl⟩ := Query.outcome_addOrder_eq_ok_iff.mp h₂
    rw [Query.schema_pushFilter] at hsteps
    exact ⟨p, steps, hp, hsteps, rfl⟩
  · rintro ⟨p, steps, hp, hsteps, rfl⟩
    refine ⟨q.pushFilter p, Query.outcome_addFilter_eq_ok_iff.mpr ⟨p, hp, rfl⟩, ?_⟩
    refine Query.outcome_addOrder_eq_ok_iff.mpr ⟨steps, ?_, rfl⟩
    rw [Query.schema_pushFilter, hsteps]

theorem outcome_plan (r : QueryRequest) (q : Query ρ) (config : Config) :
    (r.plan q config).outcome = (r.unpaged q config).outcome.map r.page := by
  rw [plan, Traced.outcome_bind]
  cases (r.unpaged q config).outcome <;> rfl

theorem outcome_plan_eq_ok_iff {r : QueryRequest} {q q' : Query ρ} {config : Config} :
    (r.plan q config).outcome = .ok q' ↔
      ∃ p steps, FilterNode.Compiles q.schema config r.filter p ∧
        OrderStep.chain q.schema false r.sort = .ok steps ∧
        q' = r.page ((q.pushFilter p).pushOrders steps) := by
  rw [outcome_plan, map_eq_ok]
  constructor
  · rintro ⟨unpaged, h, rfl⟩
    obtain ⟨p, steps, hp, hsteps, rfl⟩ := outcome_unpaged_eq_ok_iff.mp h
    exact ⟨p, steps, hp, hsteps, rfl⟩
  · rintro ⟨p, steps, hp, hsteps, rfl⟩
    exact ⟨_, outcome_unpaged_eq_ok_iff.mpr ⟨p, steps, hp, hsteps, rfl⟩, rfl⟩

theorem outcome_planCounted (r : QueryRequest) (q : Query ρ) (config : Config) :
    (r.planCounted q config).outcome
      = (r.unpaged q config).outcome.map fun q => (r.page q, q.count) := by
  rw [planCounted, Traced.outcome_bind]
  cases (r.unpaged q config).outcome <;> rfl

end Request

end RowQuery
