import RowQuery.Query

/-!
# Requests

A request asks for one page of rows: a filter, sort keys, and how many rows to drop and to keep.
Applying it to a query adds the steps of the filter, then those of the sort keys, then the paging
steps; counting is done before paging.

## Main definitions

* `Request`: a request with some form of filter; `QueryRequest`: one with a filter tree.
* `Query.addFilter`, `Query.addOrder`, `Query.addPaging`: the three parts.
* `QueryRequest.plan`, `QueryRequest.planCounted`: the whole.
-/

namespace RowQuery

variable {ρ : Type}

/-- A request for one page of rows, with a filter of some form. -/
structure Request (φ : Type) where
  filter : Option φ
  sort : List SortKey
  skip : Option UInt64
  take : Option UInt64

/-- A request with a filter tree. -/
abbrev QueryRequest := Request FilterNode

/-- The same request with the filter in another form. -/
def Request.mapFilter {φ ψ : Type} (f : φ → ψ) (r : Request φ) : Request ψ :=
  { filter := r.filter.map f, sort := r.sort, skip := r.skip, take := r.take }

namespace Query

/-- The query behind a compiled filter; without a filter, the query as it is. -/
def addFilter (q : Query ρ) (filter : Option FilterNode) (config : Config) :
    Traced (Query ρ) :=
  match filter with
  | none => pure q
  | some n => do
    let p ← n.predicate q.schema config
    pure (q.push (.filter p))

/-- The query behind the steps of the sort keys. -/
def addOrder (q : Query ρ) (keys : List SortKey) : Traced (Query ρ) := do
  let steps ← OrderStep.ofKeys keys q.schema
  pure (steps.foldl (fun q o => q.push (.order o)) q)

/-- The query behind the paging steps. -/
def addPaging (q : Query ρ) (skip take : Option Nat) : Query ρ :=
  let q := match skip with
    | some n => q.push (.skip n)
    | none => q
  match take with
  | some n => q.push (.take n)
  | none => q

/-- The record of a query that is ready to run. -/
def record (message : String) : Log.Record :=
  ⟨.debug, Log.queryTarget, message⟩

end Query

namespace Request

/-- The query behind the filter and the sort keys. -/
def unpaged (r : QueryRequest) (q : Query ρ) (config : Config) : Traced (Query ρ) := do
  let q ← q.addFilter r.filter config
  q.addOrder r.sort

/-- The query behind the paging steps of the request. -/
def page {φ : Type} (r : Request φ) (q : Query ρ) : Query ρ :=
  q.addPaging (r.skip.map UInt64.toNat) (r.take.map UInt64.toNat)

/-- The query behind the request, under a configuration. -/
def plan (r : QueryRequest) (q : Query ρ) (config : Config) : Traced (Query ρ) := do
  let q ← r.unpaged q config
  let q := r.page q
  Traced.log (Query.record q.display)
  pure q

/-- The query behind the request, under a configuration, and the number of rows before paging. -/
def planCounted (r : QueryRequest) (q : Query ρ) (config : Config) :
    Traced (Query ρ × Nat) := do
  let q ← r.unpaged q config
  let count := q.count
  let q := r.page q
  Traced.log (Query.record (q.display ++ " (count " ++ Text.showInt count ++ ")"))
  pure (q, count)

end Request

end RowQuery
