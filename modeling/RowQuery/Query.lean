import RowQuery.Query.StableSort
import RowQuery.OrderStep

/-!
# Queries

A query is a schema, rows and a plan of steps: filters, order steps, and steps that drop or keep a
number of rows. Nothing runs until the rows are wanted.

## Sorting late

Order steps are collected and sort the rows once, stably, by all collected keys: before a new
primary step, before a paging step, and at the end of the plan. Filters in between run on rows that
are not sorted yet. Each key is evaluated once for each row, not once for each comparison.

Counting sorts only if it has to: without paging steps the order cannot change the number of rows.

## Main definitions

* `Step`, `Query`.
* `Query.toList`: the rows of the plan; `Query.count`: their number.
* `Query.display`, `Query.inspect`: the two texts of a query.

## Main results

* `Query.sortRows_perm`: sorting keeps the rows.
-/

namespace RowQuery

variable {ρ : Type}

/-- A step of a plan. -/
inductive Step (ρ : Type) where
  | filter (p : Predicate ρ)
  | order (o : OrderStep)
  | skip (n : Nat)
  | take (n : Nat)

/-- Rows of a schema and a plan of steps over them. -/
structure Query (ρ : Type) where
  schema : Schema ρ
  source : List ρ
  steps : List (Step ρ)

namespace Query

/-- All rows. -/
def new (s : Schema ρ) (source : List ρ) : Query ρ := ⟨s, source, []⟩

/-- The query with one more step. -/
def push (q : Query ρ) (step : Step ρ) : Query ρ :=
  { q with steps := q.steps ++ [step] }

/-! ### Running -/

/-- The first key that tells the two rows of values apart decides. -/
def compareKeys : List OrderStep → List Value → List Value → Ordering
  | k :: keys, a :: as, b :: bs => (k.compare a b).then (compareKeys keys as bs)
  | _, _, _ => .eq

/-- The values of the keys on a row. -/
def keyValues (s : Schema ρ) (keys : List OrderStep) (row : ρ) : List Value :=
  keys.map fun k => k.key.eval s row

/-- Two rows by the keys. -/
def compareRows (s : Schema ρ) (keys : List OrderStep) (a b : ρ) : Ordering :=
  compareKeys keys (keyValues s keys a) (keyValues s keys b)

/-- The rows sorted stably by the keys; the values of the keys are computed once for each row. -/
def sortRows (s : Schema ρ) (keys : List OrderStep) (rows : List ρ) : List ρ :=
  if keys.isEmpty then rows
  else
    (stableSort (fun a b => compareKeys keys a.1 b.1)
      (rows.map fun row => (keyValues s keys row, row))).map Prod.snd

theorem sortRows_perm (s : Schema ρ) (keys : List OrderStep) (rows : List ρ) :
    (sortRows s keys rows).Perm rows := by
  unfold sortRows
  split
  · exact .refl _
  · have h := (stableSort_perm (fun a b => compareKeys keys a.1 b.1)
      (rows.map fun row => (keyValues s keys row, row))).map Prod.snd
    rwa [List.map_map, show Prod.snd ∘ (fun row => (keyValues s keys row, row)) = id from rfl,
      List.map_id] at h

@[simp] theorem length_sortRows (s : Schema ρ) (keys : List OrderStep) (rows : List ρ) :
    (sortRows s keys rows).length = rows.length :=
  (sortRows_perm s keys rows).length_eq

/-- The rows that the steps leave of some rows, with keys collected and not yet sorted by. -/
def run (s : Schema ρ) : List (Step ρ) → List ρ → List OrderStep → List ρ
  | [], rows, keys => sortRows s keys rows
  | .filter p :: steps, rows, keys => run s steps (rows.filter p.holds) keys
  | .order o :: steps, rows, keys =>
    if o.secondary then run s steps rows (keys ++ [o])
    else run s steps (sortRows s keys rows) [o]
  | .skip n :: steps, rows, keys => run s steps ((sortRows s keys rows).drop n) []
  | .take n :: steps, rows, keys => run s steps ((sortRows s keys rows).take n) []

/-- The rows of the plan, in order. -/
def toList (q : Query ρ) : List ρ :=
  run q.schema q.steps q.source []

/-- The step drops or keeps a number of rows. -/
def isPaging : Step ρ → Bool
  | .skip _ | .take _ => true
  | _ => false

/-- The predicates of the filter steps. -/
def predicates (steps : List (Step ρ)) : List (Predicate ρ) :=
  steps.filterMap fun
    | .filter p => some p
    | _ => none

/-- The number of rows of the plan. Without paging steps the order plays no part, and the rows
that meet all filters are counted. -/
def count (q : Query ρ) : Nat :=
  if q.steps.any isPaging then q.toList.length
  else q.source.countP fun row => (predicates q.steps).all fun p => p.holds row

/-! ### Text -/

/-- A step as a call. -/
def displayStep : Step ρ → String
  | .filter p => ".filter(" ++ p.display ++ ")"
  | .order o => "." ++ o.display
  | .skip n => ".skip(" ++ Text.showInt n ++ ")"
  | .take n => ".take(" ++ Text.showInt n ++ ")"

/-- The plan as a chain of calls. -/
def display (q : Query ρ) : String :=
  q.schema.name ++ "[]" ++ String.join (q.steps.map displayStep)

/-- The number of rows and the plan. -/
def inspect (q : Query ρ) : String :=
  "Query \x7b source_len: " ++ Text.showInt q.source.length ++ ", plan: " ++ Text.quote q.display
    ++ " \x7d"

end Query

end RowQuery
