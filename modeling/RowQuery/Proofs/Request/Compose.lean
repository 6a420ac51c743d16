import RowQuery.Proofs.Filter.Leaf
import RowQuery.Proofs.Request.Parts

/-!
# Two requests in a row

Applying a request to what an earlier one made of a query is applying one request. It filters by
both filters. It sorts by the later keys first, for the rows that they do not tell apart stand as
the earlier keys left them. It pages as the later request does.

The earlier request must not page. Behind its paging steps a filter would act on one page of its
rows, and no single request says that.

## Three exchanges

* The later filter acts on rows that the earlier keys are still to sort; filtering commutes with
  sorting.
* The earlier keys start an ordering of their own in the one plan, and refine the later ones in the
  other.
* A filter that is the left tree of another one has other words for its errors, since it stands
  somewhere else. Whether it compiles, and to what, does not depend on the place.

## Main definitions

* `FilterNode.both`, `Predicate.both`: two filters as one.
* `Request.compose`: two requests as one.

## Main results

* `FilterNode.compiles_both_iff`: two filters as one compile if both compile.
* `Request.plan_compose`: applying both requests is applying the one request.
-/

namespace RowQuery

variable {ρ : Type} {s : Schema ρ} {config : Config}

/-! ### Two filters as one -/

namespace FilterNode

/-- Both filters; where one is missing, the other one alone. -/
def both : Option FilterNode → Option FilterNode → Option FilterNode
  | some a, some b => some (.branch a .and b .none)
  | some a, none => some a
  | none, b => b

/-- What a tree compiles to does not depend on where it stands. -/
theorem outcome_compile_of_path {n : FilterNode} {scope : Scope} {path : String} {e : Expr}
    (h : (n.compile s scope path).outcome = .ok e) (other : String) :
    (n.compile s scope other).outcome = .ok e := by
  induction n generalizing scope path other e with
  | leaf c o => exact Condition.outcome_compile_of_path h other
  | branch l g r o ihl ihr =>
    obtain ⟨a, ha, h⟩ := Traced.outcome_bind_eq_ok.mp h
    obtain ⟨b, hb, h⟩ := Traced.outcome_bind_eq_ok.mp h
    cases h
    exact Traced.outcome_bind_eq_ok.mpr
      ⟨a, ihl ha _, Traced.outcome_bind_eq_ok.mpr ⟨b, ihr hb _, rfl⟩⟩

/-- A branch that says nothing itself compiles if its two trees do on their own. -/
theorem outcome_compileBelow_and_eq_ok_iff {a b : FilterNode} {inherited : Overrides} {e : Expr} :
    ((branch a .and b .none).compileBelow s config inherited).outcome = .ok e ↔
      ∃ x y, (a.compileBelow s config inherited).outcome = .ok x ∧
        (b.compileBelow s config inherited).outcome = .ok y ∧ e = .and x y := by
  rw [compileBelow, compile, Scope.enter_none, Traced.outcome_bind_eq_ok]
  constructor
  · rintro ⟨x, hx, h⟩
    obtain ⟨y, hy, h⟩ := Traced.outcome_bind_eq_ok.mp h
    cases h
    exact ⟨x, y, outcome_compile_of_path hx _, outcome_compile_of_path hy _, rfl⟩
  · rintro ⟨x, y, hx, hy, rfl⟩
    exact ⟨x, outcome_compile_of_path hx _,
      Traced.outcome_bind_eq_ok.mpr ⟨y, outcome_compile_of_path hy _, rfl⟩⟩

end FilterNode

/-- Both conditions; where one is missing, the other one alone. They are of one schema. -/
def Predicate.both : Option (Predicate ρ) → Option (Predicate ρ) → Option (Predicate ρ)
  | some p, some q => some ⟨p.schema, .and p.expr q.expr⟩
  | some p, none => some p
  | none, q => q

/-- **Two filters compile as one if both of them compile.** -/
theorem FilterNode.compiles_both_iff {a b : Option FilterNode} {p : Option (Predicate ρ)} :
    Compiles s config (both a b) p ↔
      ∃ x y, Compiles s config a x ∧ Compiles s config b y ∧ p = Predicate.both x y := by
  cases a with
  | none =>
    constructor
    · exact fun h => ⟨none, p, .none, h, rfl⟩
    · rintro ⟨_, y, ⟨⟩, h, rfl⟩
      exact h
  | some a =>
    cases b with
    | none =>
      constructor
      · intro h
        cases h with
        | some h => exact ⟨_, none, .some h, .none, rfl⟩
      · rintro ⟨_, _, hx, ⟨⟩, rfl⟩
        cases hx with
        | some h => exact .some h
    | some b =>
      constructor
      · intro h
        cases h with
        | some h =>
          obtain ⟨x, y, hx, hy, rfl⟩ := outcome_compileBelow_and_eq_ok_iff.mp h
          exact ⟨_, _, .some hx, .some hy, rfl⟩
      · rintro ⟨_, _, hx, hy, rfl⟩
        cases hx with
        | some hx =>
          cases hy with
          | some hy => exact .some (outcome_compileBelow_and_eq_ok_iff.mpr ⟨_, _, hx, hy, rfl⟩)

/-- A row meets both conditions if it meets each. -/
theorem FilterNode.Compiles.all_both {a b : Option FilterNode} {x y : Option (Predicate ρ)}
    (hx : Compiles s config a x) (hy : Compiles s config b y) (row : ρ) :
    (Predicate.both x y).all (·.holds row) = (x.all (·.holds row) && y.all (·.holds row)) := by
  cases hx with
  | none => rfl
  | some hx =>
    cases hy with
    | none => exact (Bool.and_true _).symm
    | some hy => exact Expr.test_and s row _ _

/-! ### Two requests as one -/

namespace Request

/-- One request for two in a row: both filters, the later keys before the earlier ones, and the
later page. -/
def compose (first second : QueryRequest) : QueryRequest where
  filter := FilterNode.both first.filter second.filter
  sort := second.sort ++ first.sort
  skip := second.skip
  take := second.take

theorem page_of_unpaged {r : QueryRequest} (hskip : r.skip = none) (htake : r.take = none)
    (q : Query ρ) : r.page q = q := by
  rw [page, hskip, htake]
  rfl

/-- The rows behind a page are determined by the rows before it. -/
theorem toList_page_congr (r : QueryRequest) {q₁ q₂ : Query ρ} (h : q₁.toList = q₂.toList) :
    (r.page q₁).toList = (r.page q₂).toList := by
  rw [page, page, Query.toList_addPaging, Query.toList_addPaging, h]

/-- The rows behind a filter and a chain. -/
theorem toList_pushOrders_pushFilter {q : Query ρ} (hq : q.Typed) (p : Option (Predicate ρ))
    {steps : List OrderStep} (hsteps : OrderStep.IsChain steps) :
    ((q.pushFilter p).pushOrders steps).toList
      = Query.sortRows q.schema steps (q.toList.filter fun row => p.all (·.holds row)) := by
  rw [Query.toList_pushOrders _ hsteps, Query.schema_pushFilter, Query.toList_pushFilter hq]

/-- Filtering and sorting twice is filtering by both and sorting by both. -/
theorem toList_twice {q : Query ρ} (hq : q.Typed) {first second : QueryRequest}
    {x y : Option (Predicate ρ)} {a b : List OrderStep}
    (hx : FilterNode.Compiles q.schema config first.filter x)
    (hy : FilterNode.Compiles q.schema config second.filter y)
    (ha : OrderStep.chain q.schema false first.sort = .ok a)
    (hb : OrderStep.chain q.schema false second.sort = .ok b) :
    ((((q.pushFilter x).pushOrders a).pushFilter y).pushOrders b).toList
      = ((q.pushFilter (Predicate.both x y)).pushOrders (OrderStep.extend b a)).toList := by
  have hsteps : OrderStep.chain q.schema false (second.sort ++ first.sort)
      = .ok (OrderStep.extend b a) :=
    OrderStep.chain_append_eq_ok_iff.mpr ⟨b, a, hb, ha, rfl⟩
  have hfirst : ((q.pushFilter x).pushOrders a).Typed := by
    refine (hq.pushFilter x).pushOrders ?_
    rw [Query.schema_pushFilter]
    exact OrderStep.sortsBy_of_chain ha
  have hrows : ∀ row ∈ q.toList.filter fun row => x.all (·.holds row), q.schema.Typed row :=
    fun row hrow => Query.typed_toList hq.rows row (List.mem_filter.mp hrow).1
  have hboth : (q.toList.filter fun row => (Predicate.both x y).all (·.holds row))
      = (q.toList.filter fun row => x.all (·.holds row)).filter fun row => y.all (·.holds row) := by
    rw [List.filter_filter]
    refine List.filter_congr fun row _ => ?_
    rw [hx.all_both hy, Bool.and_comm]
  calc ((((q.pushFilter x).pushOrders a).pushFilter y).pushOrders b).toList
      = Query.sortRows q.schema b ((Query.sortRows q.schema a
          (q.toList.filter fun row => x.all (·.holds row))).filter
            fun row => y.all (·.holds row)) := by
        rw [toList_pushOrders_pushFilter hfirst y (OrderStep.isChain_of_chain hb),
          toList_pushOrders_pushFilter hq x (OrderStep.isChain_of_chain ha),
          Query.schema_pushOrders, Query.schema_pushFilter]
    _ = Query.sortRows q.schema b (Query.sortRows q.schema a
          (q.toList.filter fun row => (Predicate.both x y).all (·.holds row))) := by
        rw [Query.filter_sortRows (OrderStep.sortsBy_of_chain ha) hrows, hboth]
    _ = ((q.pushFilter (Predicate.both x y)).pushOrders (OrderStep.extend b a)).toList := by
        rw [toList_pushOrders_pushFilter hq _ (OrderStep.isChain_of_chain hsteps),
          Query.sortRows_extend (OrderStep.sortsBy_of_chain hb) (OrderStep.sortsBy_of_chain ha)]
        exact fun row hrow => Query.typed_toList hq.rows row (List.mem_filter.mp hrow).1

/-- What two requests in a row make of a query. -/
theorem outcome_twice_eq_ok_iff {q q' : Query ρ} {first second : QueryRequest}
    (hskip : first.skip = none) (htake : first.take = none) :
    (first.plan q config >>= fun q => second.plan q config).outcome = .ok q' ↔
      ∃ x y a b, FilterNode.Compiles q.schema config first.filter x ∧
        FilterNode.Compiles q.schema config second.filter y ∧
        OrderStep.chain q.schema false first.sort = .ok a ∧
        OrderStep.chain q.schema false second.sort = .ok b ∧
        q' = second.page ((((q.pushFilter x).pushOrders a).pushFilter y).pushOrders b) := by
  rw [Traced.outcome_bind_eq_ok]
  constructor
  · rintro ⟨q₁, h₁, h₂⟩
    obtain ⟨x, a, hx, ha, rfl⟩ := outcome_plan_eq_ok_iff.mp h₁
    obtain ⟨y, b, hy, hb, rfl⟩ := outcome_plan_eq_ok_iff.mp h₂
    rw [page_of_unpaged hskip htake, Query.schema_pushOrders, Query.schema_pushFilter] at hy hb
    rw [page_of_unpaged hskip htake]
    exact ⟨x, y, a, b, hx, hy, ha, hb, rfl⟩
  · rintro ⟨x, y, a, b, hx, hy, ha, hb, rfl⟩
    refine ⟨_, outcome_plan_eq_ok_iff.mpr ⟨x, a, hx, ha, rfl⟩, ?_⟩
    rw [page_of_unpaged hskip htake]
    refine outcome_plan_eq_ok_iff.mpr ⟨y, b, ?_, ?_, rfl⟩
    · rwa [Query.schema_pushOrders, Query.schema_pushFilter]
    · rwa [Query.schema_pushOrders, Query.schema_pushFilter]

/-- What the one request makes of it. -/
theorem outcome_compose_eq_ok_iff {q q' : Query ρ} {first second : QueryRequest} :
    ((first.compose second).plan q config).outcome = .ok q' ↔
      ∃ x y a b, FilterNode.Compiles q.schema config first.filter x ∧
        FilterNode.Compiles q.schema config second.filter y ∧
        OrderStep.chain q.schema false first.sort = .ok a ∧
        OrderStep.chain q.schema false second.sort = .ok b ∧
        q' = second.page ((q.pushFilter (Predicate.both x y)).pushOrders
          (OrderStep.extend b a)) := by
  rw [outcome_plan_eq_ok_iff]
  constructor
  · rintro ⟨p, steps, hp, hsteps, rfl⟩
    obtain ⟨x, y, hx, hy, rfl⟩ := FilterNode.compiles_both_iff.mp hp
    obtain ⟨b, a, hb, ha, rfl⟩ := OrderStep.chain_append_eq_ok_iff.mp hsteps
    exact ⟨x, y, a, b, hx, hy, ha, hb, rfl⟩
  · rintro ⟨x, y, a, b, hx, hy, ha, hb, rfl⟩
    exact ⟨_, _, FilterNode.compiles_both_iff.mpr ⟨x, y, hx, hy, rfl⟩,
      OrderStep.chain_append_eq_ok_iff.mpr ⟨b, a, hb, ha, rfl⟩, rfl⟩

/-- **Two requests in a row are one request.** On a query with any steps in it whose rows are typed,
the one request succeeds when the two do, and then the rows and their number are the same. -/
theorem plan_compose {q : Query ρ} (hq : q.Typed) (config : Config)
    (first second : QueryRequest) (hskip : first.skip = none) (htake : first.take = none) :
    ((∃ twice, (first.plan q config >>= fun q => second.plan q config).outcome = .ok twice) ↔
        ∃ once, ((first.compose second).plan q config).outcome = .ok once) ∧
      ∀ twice once, (first.plan q config >>= fun q => second.plan q config).outcome = .ok twice →
        ((first.compose second).plan q config).outcome = .ok once →
          twice.toList = once.toList ∧ twice.count = once.count := by
  refine ⟨⟨?_, ?_⟩, ?_⟩
  · rintro ⟨_, h⟩
    obtain ⟨x, y, a, b, hx, hy, ha, hb, -⟩ := (outcome_twice_eq_ok_iff hskip htake).mp h
    exact ⟨_, outcome_compose_eq_ok_iff.mpr ⟨x, y, a, b, hx, hy, ha, hb, rfl⟩⟩
  · rintro ⟨_, h⟩
    obtain ⟨x, y, a, b, hx, hy, ha, hb, -⟩ := outcome_compose_eq_ok_iff.mp h
    exact ⟨_, (outcome_twice_eq_ok_iff hskip htake).mpr ⟨x, y, a, b, hx, hy, ha, hb, rfl⟩⟩
  · intro twice once htwice honce
    obtain ⟨x, y, a, b, hx, hy, ha, hb, rfl⟩ := (outcome_twice_eq_ok_iff hskip htake).mp htwice
    rw [outcome_compose_eq_ok_iff.mpr ⟨x, y, a, b, hx, hy, ha, hb, rfl⟩] at honce
    cases honce
    have hrows := toList_page_congr second (toList_twice hq hx hy ha hb)
    exact ⟨hrows, by rw [← Query.length_toList, ← Query.length_toList, hrows]⟩

/-- A query that is to be sorted already, and two requests that filter and sort by different
properties. -/
theorem plan_compose_pending :
    let s : Schema (Option Int64 × Int64) :=
      ⟨"Item", [⟨"Rank", ⟨.nullable, .int⟩, fun row => row.1.elim .null .int⟩,
        ⟨"Size", ⟨.value, .int⟩, fun row => .int row.2⟩]⟩
    let q : Query (Option Int64 × Int64) :=
      ⟨s, [(some 3, 1), (none, 2), (some 7, 1), (some 3, 2), (some 7, 2)],
        [.order ⟨.property 1 "Size" ⟨.value, .int⟩, true, false⟩]⟩
    let first : QueryRequest :=
      ⟨some (.leaf ⟨"rank", "isnotnull", "0"⟩ .none), [⟨"rank", false, true⟩], none, none⟩
    let second : QueryRequest :=
      ⟨some (.leaf ⟨"size", "lte", "2"⟩ .none), [⟨"SIZE", false, false⟩], some 1, some 2⟩
    q.Typed ∧ first.skip = none ∧ first.take = none ∧ ∃ twice once,
      (first.plan q .json >>= fun q => second.plan q .json).outcome = .ok twice ∧
        ((first.compose second).plan q .json).outcome = .ok once ∧
          twice.toList = once.toList ∧ twice.count = once.count ∧
            once.toList = [(some 7, 1), (some 3, 2)] := by
  intro s q first second
  have hrank : ∀ cell : Option Int64, DataType.Holds ⟨.nullable, .int⟩ (cell.elim .null .int) := by
    intro cell
    cases cell with
    | none => exact .absent
    | some n => exact .scalar rfl (.int n)
  have hsize : ∀ n, DataType.Holds ⟨.value, .int⟩ (.int n) := fun n => .scalar rfl (.int n)
  have hq : q.Typed := by
    constructor
    · intro row _
      simp [q, s, Schema.Typed, hrank, hsize]
    · intro o ho
      obtain rfl : o = ⟨.property 1 "Size" ⟨.value, .int⟩, true, false⟩ := by simpa [q] using ho
      exact .property (p := ⟨"Size", ⟨.value, .int⟩, fun row => .int row.2⟩) rfl
  obtain ⟨hsucceeds, hsame⟩ := plan_compose hq .json first second rfl rfl
  obtain ⟨once, honce⟩ : ∃ once, ((first.compose second).plan q .json).outcome = .ok once :=
    ⟨_, rfl⟩
  obtain ⟨twice, htwice⟩ := hsucceeds.mpr ⟨once, honce⟩
  obtain ⟨hrows, hcount⟩ := hsame twice once htwice honce
  have hresult : once.toList = [(some 7, 1), (some 3, 2)] := by
    cases honce
    decide +kernel
  exact ⟨hq, rfl, rfl, twice, once, htwice, honce, hrows, hcount, hresult⟩

end Request

end RowQuery
