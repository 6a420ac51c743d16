import RowQuery.Filter.Compile

/-!
# Sort keys and order steps

A list of sort keys becomes a chain of order steps. The first step of the chain is primary, it
starts a new ordering; the others refine it. A key that wants absent values lowest is preceded by
a step on the presence of its property.

## Main definitions

* `SortKey`, `OrderStep`.
* `OrderStep.compare`: two values in a step's direction.
* `OrderStep.chain`: the steps of a list of keys; `OrderStep.ofKeys`: the same, traced.
-/

namespace RowQuery

variable {ρ : Type}

/-- A property to sort by. -/
structure SortKey where
  property : String
  descending : Bool := false
  /-- Absent values are to come lowest; only for properties that may be absent. -/
  absentLowest : Bool := false
  deriving DecidableEq, Repr

/-- One step of an ordering. -/
structure OrderStep where
  key : Expr
  descending : Bool
  /-- The step refines the ordering before it and does not start a new one. -/
  secondary : Bool
  deriving Repr

/-- The test that a property is present, if its type has absence. -/
def DataType.presence? (t : DataType) (access : Expr) : Option Expr :=
  match t.absence with
  | .flagged => some (.isPresent access)
  | .reference => some (.compare .ne access (.null t))
  | .never => none

/-- The expressions that a key sorts by: the property, behind its presence if absent values are to
come lowest. -/
def SortKey.exprs (k : SortKey) (s : Schema ρ) : Except QueryError (List Expr) := do
  let (id, p) ← s.locate k.property
  let access := Expr.property id p.name p.type
  if k.absentLowest then
    match p.type.presence? access with
    | some present => .ok [present, access]
    | none =>
      .error (.notNullable p.name p.type.display ("treatNullLowest sort on " ++ s.name))
  else .ok [access]

namespace OrderStep

/-- What the step does, by name. -/
def verb (s : OrderStep) : String :=
  match s.secondary, s.descending with
  | false, false => "order_by"
  | false, true => "order_by_descending"
  | true, false => "then_by"
  | true, true => "then_by_descending"

/-- Two values of the key in the step's direction. -/
def compare (s : OrderStep) (a b : Value) : Ordering :=
  if s.descending then (a.sortOrder b).swap else a.sortOrder b

/-- The step as a call. -/
def display (s : OrderStep) : String :=
  s.verb ++ "(|it| " ++ s.key.display ++ ")"

/-- The steps of some expressions in one direction, the first of them primary or not. -/
def ofExprs (descending secondary : Bool) : List Expr → List OrderStep
  | [] => []
  | e :: es => ⟨e, descending, secondary⟩ :: ofExprs descending true es

/-- The steps of a list of keys, the first of them primary or not. -/
def chain (s : Schema ρ) (secondary : Bool) : List SortKey → Except QueryError (List OrderStep)
  | [] => .ok []
  | k :: keys => do
    let exprs ← k.exprs s
    let rest ← chain s true keys
    .ok (ofExprs k.descending secondary exprs ++ rest)

/-- The log record of compiled keys. -/
def record (s : Schema ρ) (steps : List OrderStep) : Log.Record :=
  ⟨.debug, Log.compileTarget, s.name ++ ": sort " ++ ".".intercalate (steps.map display)⟩

/-- The steps of a list of keys, of which the very first is primary. A log record is left if there
are any. -/
def ofKeys (keys : List SortKey) (s : Schema ρ) : Traced (List OrderStep) := do
  let steps ← .ofExcept (chain s false keys)
  if !steps.isEmpty then .log (record s steps)
  pure steps

end OrderStep

end RowQuery
