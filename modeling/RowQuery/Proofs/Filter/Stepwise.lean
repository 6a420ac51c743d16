import RowQuery.Proofs.Outcome
import RowQuery.Request

/-!
# Compiling look by look

What compiles under a configuration does not take it in at once. Each leaf of a filter looks for its
operator and then for its deserializer, so there are two looks for every leaf, and nothing says that
they meet the same configuration. A computation that is written look by look has no configuration of
its own: it goes on from whatever a look shows, which may be a deserializer of one configuration and
operators of another.

If all looks show one configuration, then the computation is the one under that configuration. So
whoever runs it has one thing to see to.

## Main definitions

* `Stepwise`: a traced computation with looks on its way; `Stepwise.under`: all of them show one
  configuration.
* `FilterNode.predicateStepwise`, `Request.planStepwise`, `Request.planCountedStepwise`: compiling a
  filter, and putting a request behind a query, look by look.

## Main results

* `Stepwise.under_bind`: looks of one computation behind those of another.
* `FilterNode.under_predicateStepwise`, `Request.under_planStepwise`,
  `Request.under_planCountedStepwise`: under one configuration these are what they should be.
-/

namespace RowQuery

/-- A traced computation that looks at a configuration on its way. -/
inductive Stepwise (α : Type) where
  | done (x : Traced α)
  | look (next : Config → Stepwise α)

namespace Stepwise

variable {α β : Type}

/-- The computation if every look shows the same configuration. -/
def under (config : Config) : Stepwise α → Traced α
  | done x => x
  | look next => (next config).under config

/-- The computation behind some events. -/
def after (events : List Event) : Stepwise α → Stepwise α
  | done x => done ⟨events ++ x.events, x.outcome⟩
  | look next => look fun config => (next config).after events

/-- One computation behind the other, unless the first one fails. -/
def bind : Stepwise α → (α → Stepwise β) → Stepwise β
  | done x, f =>
    match x.outcome with
    | .ok a => (f a).after x.events
    | .error e => done ⟨x.events, .error e⟩
  | look next, f => look fun config => (next config).bind f

instance : Monad Stepwise where
  pure a := done (pure a)
  bind := bind

/-- A look for the operators. -/
def operators : Stepwise Registry := look fun config => pure config.operators

/-- A look for the deserializer. -/
def deserializer? : Stepwise (Option Deserializer) := look fun config => pure config.deserializer

@[simp] theorem under_done (config : Config) (x : Traced α) : (done x).under config = x := rfl

@[simp] theorem under_pure (config : Config) (a : α) :
    (pure a : Stepwise α).under config = pure a := rfl

@[simp] theorem under_operators (config : Config) :
    operators.under config = pure config.operators := rfl

@[simp] theorem under_deserializer? (config : Config) :
    deserializer?.under config = pure config.deserializer := rfl

theorem under_after (config : Config) (events : List Event) (x : Stepwise α) :
    (x.after events).under config
      = ⟨events ++ (x.under config).events, (x.under config).outcome⟩ := by
  induction x with
  | done x => rfl
  | look next ih => exact ih config

/-- **Looks behind looks**: under one configuration it is one computation behind the other. -/
@[simp] theorem under_bind (config : Config) (x : Stepwise α) (f : α → Stepwise β) :
    (x >>= f).under config = x.under config >>= fun a => (f a).under config := by
  induction x with
  | done x =>
    show (bind (done x) f).under config = _
    rw [bind, under_done]
    cases hx : x.outcome with
    | ok a => rw [Traced.bind_ok hx, under_after]
    | error e => rw [Traced.bind_error hx, under_done]
  | look next ih => exact ih config

end Stepwise

variable {ρ : Type}

/-! ### Filters -/

namespace FilterNode

/-- A tree at a path, below given overrides. Each leaf looks twice. -/
def compileStepwise (s : Schema ρ) : FilterNode → Overrides → String → Stepwise Expr
  | leaf c o, inherited, path => do
    let operators ← Stepwise.operators
    let deserializer ← Stepwise.deserializer?
    .done (c.compile s ⟨⟨deserializer, operators⟩, o.under inherited⟩ path)
  | branch l g r o, inherited, path => do
    let left ← l.compileStepwise s (o.under inherited) (leftOf path)
    let right ← r.compileStepwise s (o.under inherited) (rightOf path)
    pure (g.join left right)

/-- A filter compiled look by look. -/
def predicateStepwise (n : FilterNode) (s : Schema ρ) : Stepwise (Predicate ρ) := do
  let e ← n.compileStepwise s .none rootPath
  .done do
    let p : Predicate ρ := ⟨s, e⟩
    .log p.record
    pure p

theorem under_compileStepwise (config : Config) (s : Schema ρ) (n : FilterNode)
    (inherited : Overrides) (path : String) :
    (n.compileStepwise s inherited path).under config = n.compile s ⟨config, inherited⟩ path := by
  induction n generalizing inherited path with
  | leaf c o =>
    simp only [compileStepwise, Stepwise.under_bind, Stepwise.under_operators,
      Stepwise.under_deserializer?, Stepwise.under_done, pure_bind]
    rfl
  | branch l g r o ihl ihr =>
    simp only [compileStepwise, Stepwise.under_bind, ihl, ihr, Stepwise.under_pure]
    rfl

/-- **A filter whose looks all show one configuration** is compiled under it. -/
theorem under_predicateStepwise (config : Config) (n : FilterNode) (s : Schema ρ) :
    (n.predicateStepwise s).under config = n.predicate s config := by
  rw [predicateStepwise, Stepwise.under_bind, under_compileStepwise]
  rfl

end FilterNode

/-! ### Requests -/

/-- The query behind a filter that is compiled look by look. -/
def Query.addFilterStepwise (q : Query ρ) : Option FilterNode → Stepwise (Query ρ)
  | none => pure q
  | some n => do
    let p ← n.predicateStepwise q.schema
    pure (q.push (.filter p))

theorem Query.under_addFilterStepwise (config : Config) (q : Query ρ)
    (filter : Option FilterNode) :
    (q.addFilterStepwise filter).under config = q.addFilter filter config := by
  cases filter with
  | none => rfl
  | some n =>
    rw [addFilterStepwise, Stepwise.under_bind, FilterNode.under_predicateStepwise]
    rfl

namespace Request

/-- The query behind the filter and the sort keys. Sort keys need no look. -/
def unpagedStepwise (r : QueryRequest) (q : Query ρ) : Stepwise (Query ρ) := do
  let q ← q.addFilterStepwise r.filter
  .done (q.addOrder r.sort)

/-- The query behind the request. -/
def planStepwise (r : QueryRequest) (q : Query ρ) : Stepwise (Query ρ) := do
  let q ← r.unpagedStepwise q
  .done do
    let q := r.page q
    Traced.log (Query.record q.display)
    pure q

/-- The query behind the request, and the number of rows before paging. -/
def planCountedStepwise (r : QueryRequest) (q : Query ρ) : Stepwise (Query ρ × Nat) := do
  let q ← r.unpagedStepwise q
  .done do
    let count := q.count
    let q := r.page q
    Traced.log (Query.record (q.display ++ " (count " ++ Text.showInt count ++ ")"))
    pure (q, count)

theorem under_unpagedStepwise (config : Config) (r : QueryRequest) (q : Query ρ) :
    (r.unpagedStepwise q).under config = r.unpaged q config := by
  rw [unpagedStepwise, Stepwise.under_bind, Query.under_addFilterStepwise]
  rfl

/-- **A request whose looks all show one configuration** is put behind a query under it. -/
theorem under_planStepwise (config : Config) (r : QueryRequest) (q : Query ρ) :
    (r.planStepwise q).under config = r.plan q config := by
  rw [planStepwise, Stepwise.under_bind, under_unpagedStepwise]
  rfl

/-- So is one that is counted. -/
theorem under_planCountedStepwise (config : Config) (r : QueryRequest) (q : Query ρ) :
    (r.planCountedStepwise q).under config = r.planCounted q config := by
  rw [planCountedStepwise, Stepwise.under_bind, under_unpagedStepwise]
  rfl

end Request

end RowQuery
