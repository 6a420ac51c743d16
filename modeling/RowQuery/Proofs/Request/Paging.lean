import RowQuery.Proofs.Request.Parts

/-!
# Pages and counts

A request asks for one page of some rows, the rows of the same request without paging. The page is
cut out of them, and their number is the count. Both ways of applying a request, with a count and
without, make the same query or fail with the same error.

## What the rows are

The query may have any steps in it, paging steps and orderings among them. Nothing is assumed of
rows or keys: paging cuts whatever the plan yields, and sorting keeps the number of rows whatever
order it puts them in. So the count depends on the query and the filter and on nothing else.

## One page after another

Pages of one size, each of which starts where the one before it ends, give all rows and each of them
once. There are as many of them as it takes to reach the count; the last one may be shorter. A page
that starts behind the last row is empty.

## Main definitions

* `Request.unbounded`, `Request.onPage`: the request for all rows, and for the rows of one page.
* `Request.pageCount`: the number of pages.

## Main results

* `Request.outcome_map_fst_planCounted`: counting changes neither the query nor the error.
* `Request.count_of_fresh`: without any steps before it, a request counts the rows that meet its
  filter.
* `Request.flatMap_pages`: the pages in a row are all rows.
* `Request.planCounted_exact`: pages and counts together.
-/

namespace RowQuery

variable {ρ : Type}

/-! ### Cutting a list into pages -/

/-- The number of pages of a size that some rows fill, the last one perhaps in part. -/
def Request.pageCount (count size : Nat) : Nat := (count + size - 1) / size

theorem Request.le_pageCount_mul {size : Nat} (h : 0 < size) (count : Nat) :
    count ≤ pageCount count size * size := by
  have hdiv : size * pageCount count size + (count + size - 1) % size = count + size - 1 :=
    Nat.div_add_mod (count + size - 1) size
  have hmod : (count + size - 1) % size < size := Nat.mod_lt _ h
  rw [Nat.mul_comm] at hdiv
  omega

/-- The first pages of a list are its start. The induction is on the number of pages; the next page
is cut out behind those before it. -/
theorem flatMap_range_take_drop {α : Type} (xs : List α) (size n : Nat) :
    ((List.range n).flatMap fun i => (xs.drop (i * size)).take size) = xs.take (n * size) := by
  induction n with
  | zero => simp
  | succ n ih =>
    rw [List.range_succ, List.flatMap_append, ih, List.flatMap_singleton, Nat.succ_mul,
      List.take_add]

namespace Request

/-! ### The request without paging, and on one page -/

/-- The request for all rows. -/
def unbounded (r : QueryRequest) : QueryRequest := { r with skip := none, take := none }

/-- The request for some rows from a row on. -/
def onPage (r : QueryRequest) (start size : UInt64) : QueryRequest :=
  { r with skip := some start, take := some size }

/-- Counting changes neither the query nor the error. -/
theorem outcome_map_fst_planCounted (r : QueryRequest) (q : Query ρ) (config : Config) :
    (r.planCounted q config).outcome.map Prod.fst = (r.plan q config).outcome := by
  rw [outcome_planCounted, outcome_plan]
  cases (r.unpaged q config).outcome <;> rfl

theorem outcome_plan_unbounded (r : QueryRequest) (q : Query ρ) (config : Config) :
    (r.unbounded.plan q config).outcome = (r.unpaged q config).outcome := by
  rw [outcome_plan]
  show (r.unpaged q config).outcome.map r.unbounded.page = _
  cases (r.unpaged q config).outcome <;> rfl

section Unpaged

variable {r : QueryRequest} {q all : Query ρ} {config : Config}

/-- A page and a count come from the rows before paging. -/
theorem of_planCounted_eq_ok {paged : Query ρ} {count : Nat}
    (h : (r.planCounted q config).outcome = .ok (paged, count)) :
    ∃ all, (r.unpaged q config).outcome = .ok all ∧ paged = r.page all ∧ count = all.count := by
  rw [outcome_planCounted] at h
  obtain ⟨all, hall, hresult⟩ := map_eq_ok.mp h
  cases hresult
  exact ⟨all, hall, rfl, rfl⟩

/-! ### The count -/

/-- The count is that of the filtered rows. -/
theorem count_of_unpaged (h : (r.unpaged q config).outcome = .ok all) :
    ∃ p, FilterNode.Compiles q.schema config r.filter p ∧ all.count = (q.pushFilter p).count := by
  obtain ⟨p, steps, hp, hsteps, rfl⟩ := outcome_unpaged_eq_ok_iff.mp h
  exact ⟨p, hp, Query.count_pushOrders _ (OrderStep.isChain_of_chain hsteps)⟩

/-- On a query without any steps it is the number of rows that meet the filter. -/
theorem count_of_fresh (h : (r.unpaged q config).outcome = .ok all) (hq : q.steps = []) :
    ∃ p, FilterNode.Compiles q.schema config r.filter p ∧
      all.count = q.source.countP fun row => p.all (·.holds row) := by
  obtain ⟨p, hp, hcount⟩ := count_of_unpaged h
  refine ⟨p, hp, hcount.trans ?_⟩
  cases p <;> simp [Query.pushFilter, Query.push, Query.count, Query.predicates, Query.isPaging, hq]

/-- Sort keys and paging play no part in it. -/
theorem count_eq_of_filter_eq {r' : QueryRequest} {all' : Query ρ} (hfilter : r'.filter = r.filter)
    (h : (r.unpaged q config).outcome = .ok all)
    (h' : (r'.unpaged q config).outcome = .ok all') : all'.count = all.count := by
  obtain ⟨p, hp, hcount⟩ := count_of_unpaged h
  obtain ⟨p', hp', hcount'⟩ := count_of_unpaged h'
  rw [hfilter] at hp'
  cases hp.unique hp'
  rw [hcount, hcount']

/-! ### Pages in a row -/

theorem outcome_plan_onPage (h : (r.unpaged q config).outcome = .ok all) (start size : UInt64) :
    ((r.onPage start size).plan q config).outcome = .ok ((r.onPage start size).page all) := by
  rw [outcome_plan]
  show (r.unpaged q config).outcome.map _ = _
  rw [h]
  rfl

theorem toList_page_onPage (r : QueryRequest) (all : Query ρ) (start size : UInt64) :
    ((r.onPage start size).page all).toList = (all.toList.drop start.toNat).take size.toNat :=
  Query.toList_addPaging all (some start.toNat) (some size.toNat)

/-- **The pages in a row are all rows.** -/
theorem flatMap_pages (r : QueryRequest) (all : Query ρ) {size : UInt64} {starts : Nat → UInt64}
    (hsize : 0 < size.toNat)
    (hstarts : ∀ i < pageCount all.count size.toNat, (starts i).toNat = i * size.toNat) :
    ((List.range (pageCount all.count size.toNat)).flatMap fun i =>
        ((r.onPage (starts i) size).page all).toList) = all.toList := by
  have hpage : ∀ i ∈ List.range (pageCount all.count size.toNat),
      ((r.onPage (starts i) size).page all).toList
        = (all.toList.drop (i * size.toNat)).take size.toNat := by
    intro i hi
    rw [toList_page_onPage, hstarts i (List.mem_range.mp hi)]
  have hlength : all.toList.length ≤ pageCount all.count size.toNat * size.toNat := by
    rw [Query.length_toList]
    exact le_pageCount_mul hsize all.count
  rw [List.flatMap_congr hpage, flatMap_range_take_drop, List.take_of_length_le hlength]

end Unpaged

/-! ### Together -/

/-- How a page and a count come from all rows. -/
structure CutsExactly (r : QueryRequest) (q : Query ρ) (config : Config) (all paged : Query ρ)
    (count : Nat) : Prop where
  /-- The request without paging is for all rows. -/
  unbounded : (r.unbounded.plan q config).outcome = .ok all
  /-- The count is their number. -/
  counted : count = all.toList.length
  /-- Without any steps before, it is the number of rows that meet the filter. -/
  fresh : q.steps = [] → ∃ p, FilterNode.Compiles q.schema config r.filter p ∧
    count = q.source.countP fun row => p.all (·.holds row)
  /-- Other sort keys and other paging do not change the count. -/
  filter_only : ∀ (r' : QueryRequest) (paged' : Query ρ) (count' : Nat), r'.filter = r.filter →
    (r'.planCounted q config).outcome = .ok (paged', count') → count' = count
  /-- The page drops its rows from the front, and keeps its number of those that are left. -/
  page : paged.toList = ((r.take.map UInt64.toNat).elim id List.take)
    (all.toList.drop ((r.skip.map UInt64.toNat).getD 0))
  /-- The pages of one size in a row are all rows. -/
  pages : ∀ (size : UInt64) (starts : Nat → UInt64), 0 < size →
    (∀ i < pageCount count size.toNat, (starts i).toNat = i * size.toNat) →
      ∃ pages : Nat → Query ρ,
        (∀ i, ((r.onPage (starts i) size).plan q config).outcome = .ok (pages i)) ∧
          ((List.range (pageCount count size.toNat)).flatMap fun i => (pages i).toList)
            = all.toList

/-- **Paging and counting are exact.** Applying a request with a count makes the query that applying
it makes, or fails as that fails, and the page and the count are cut from all rows of the request.
-/
theorem planCounted_exact (r : QueryRequest) (q : Query ρ) (config : Config) :
    (r.planCounted q config).outcome.map Prod.fst = (r.plan q config).outcome ∧
      ∀ paged count, (r.planCounted q config).outcome = .ok (paged, count) →
        ∃ all, r.CutsExactly q config all paged count := by
  refine ⟨outcome_map_fst_planCounted r q config, fun paged count h => ?_⟩
  obtain ⟨all, hall, rfl, rfl⟩ := of_planCounted_eq_ok h
  refine ⟨all, ?_⟩
  constructor
  case unbounded => rw [outcome_plan_unbounded, hall]
  case counted => rw [Query.length_toList]
  case fresh => exact count_of_fresh hall
  case filter_only =>
    intro r' paged' count' hfilter h'
    obtain ⟨all', hall', -, rfl⟩ := of_planCounted_eq_ok h'
    exact count_eq_of_filter_eq hfilter hall hall'
  case page => exact Query.toList_addPaging all _ _
  case pages =>
    intro size starts hsize hstarts
    exact ⟨fun i => (r.onPage (starts i) size).page all, fun i => outcome_plan_onPage hall _ _,
      flatMap_pages r all (UInt64.lt_iff_toNat_lt.mp hsize) hstarts⟩

/-- Three pages of a filtered and sorted query with five rows left; the last page has one of them.
-/
theorem planCounted_exact_three_pages :
    let s : Schema (Option Int64) :=
      ⟨"Item", [⟨"Rank", ⟨.nullable, .int⟩, fun row => row.elim .null .int⟩]⟩
    let q : Query (Option Int64) := .new s [some 3, none, some 7, some 4, some 1, some 9]
    let r : QueryRequest :=
      ⟨some (.leaf ⟨"rank", "gt", "0"⟩ .none), [⟨"rank", true, false⟩], some 1, some 9⟩
    let starts : Nat → UInt64 := fun i => 2 * UInt64.ofNat i
    ∃ paged all, (r.planCounted q .json).outcome = .ok (paged, 5) ∧
      (r.unbounded.plan q .json).outcome = .ok all ∧
        (∃ p, FilterNode.Compiles s .json r.filter p ∧
          5 = q.source.countP fun row => p.all (·.holds row)) ∧
        paged.toList = [some 7, some 4, some 3, some 1] ∧ ∃ pages : Nat → Query (Option Int64),
          (∀ i, ((r.onPage (starts i) 2).plan q .json).outcome = .ok (pages i)) ∧
            (pages 0).toList ++ (pages 1).toList ++ (pages 2).toList = all.toList := by
  intro s q r starts
  obtain ⟨⟨paged, count⟩, h⟩ : ∃ result, (r.planCounted q .json).outcome = .ok result := ⟨_, rfl⟩
  obtain ⟨all, hexact⟩ := (planCounted_exact r q .json).2 paged count h
  have hcount : count = 5 := by
    cases h
    rfl
  have hpaged : paged.toList = [some 7, some 4, some 3, some 1] := by
    cases h
    decide +kernel
  subst hcount
  obtain ⟨pages, hpages, hrows⟩ := hexact.pages 2 starts (by decide) (by decide)
  refine ⟨paged, all, h, hexact.unbounded, hexact.fresh rfl, hpaged, pages, hpages, ?_⟩
  rw [← hrows]
  simp [pageCount, List.range_succ]

end Request

end RowQuery
