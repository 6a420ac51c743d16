import RowQuery.Filter
import RowQuery.Trace

/-!
# Compiling filters

A filter tree becomes one condition on a row. Leaves are compiled from left to right, each in the
overrides in effect there, and the first failure ends it.

## The steps of a leaf

A leaf first locates its property, then its operator, then a deserializer (`Condition.locate`);
nothing is asked of a deserializer until all three are found. Then its raw text is read, the
operator builds a condition from the value, a record is left, and the condition is put behind its
guard. So a leaf asks at most one question, and whether it did can be told from its error.

A name that an overriding registry lacks is looked up in the configuration, never in the registry
of a node further up: the nearest registry replaces the others as a whole.

## Main definitions

* `Scope`: the configuration and the overrides in effect.
* `Condition.locate`: all that a leaf needs before its text is read.
* `Condition.compile`, `FilterNode.compile`: a leaf and a tree in a scope.
* `FilterNode.compileBelow`: a tree from its root, below given overrides.
* `Predicate`: a compiled filter with its schema; `FilterNode.predicate`.
-/

namespace RowQuery

variable {ρ : Type}

/-- The configuration and the overrides in effect at a node. -/
structure Scope where
  config : Config
  overrides : Overrides

namespace Scope

/-- The deserializer in effect. -/
def deserializer? (s : Scope) : Option Deserializer :=
  s.overrides.deserializer.or s.config.deserializer

/-- The operator of a name: of the overriding registry, or else of the configuration. -/
def handler? (s : Scope) (name : String) : Option Handler :=
  (s.overrides.operators.bind (·.get? name)).or (s.config.operators.get? name)

/-- The scope of a node with words of its own. -/
def enter (s : Scope) (own : Overrides) : Scope :=
  { s with overrides := own.under s.overrides }

@[simp] theorem enter_none (s : Scope) : s.enter .none = s := rfl

theorem enter_enter (s : Scope) (a b : Overrides) :
    (s.enter a).enter b = s.enter (b.under a) := by
  simp [enter, Overrides.under_assoc]

end Scope

/-! ### Leaves -/

/-- The place of the property with a name and the property, or the error that there is none. -/
def Schema.locate (s : Schema ρ) (name : String) : Except QueryError (Nat × Property ρ) :=
  match s.find? name with
  | some found => .ok found
  | none => .error (.propertyNotFound name s.name)

/-- What a leaf needs before its text is read. -/
structure Located (ρ : Type) where
  id : Nat
  property : Property ρ
  handler : Handler
  deserializer : Deserializer

namespace Located

variable (l : Located ρ)

/-- The property as it is read. -/
def access : Expr := .property l.id l.property.name l.property.type

/-- The type that the text is read as. -/
def target : DataType := l.handler.constantType l.property.type.present l.property.type

/-- The condition that the operator builds, without a guard. -/
def condition (value : Value) : Except OperandError Expr :=
  l.handler.build l.property.type.present l.property.type
    (l.handler.operand l.property.type l.access) (.constant value l.target)

/-- A condition behind the guard of the leaf. -/
def guarded (e : Expr) : Expr := l.handler.guarded l.property.type l.access e

end Located

namespace Condition

/-- Where the operator stands, for errors that have no path of their own. -/
def context (c : Condition) (path : String) : String :=
  "operator '" ++ c.operator ++ "' at " ++ path

/-- The operator of the condition, if it accepts the property's type. -/
def handler (c : Condition) (p : Property ρ) (scope : Scope) (path : String) :
    Except QueryError Handler :=
  match scope.handler? c.operator with
  | none => .error (.unknownOperator c.operator path scope.overrides.operators.isSome)
  | some h =>
    if h.needsAbsence && p.type.absence == .never then
      .error (.notNullable p.name p.type.display (c.context path))
    else .ok h

/-- The deserializer in effect, or the error that there is none. -/
def deserializer (c : Condition) (p : Property ρ) (scope : Scope) (path : String) :
    Except QueryError Deserializer :=
  match scope.deserializer? with
  | some d => .ok d
  | none => .error (.missingDeserializer p.name c.value path)

/-- All that is needed before the text is read: the property, then the operator, then the
deserializer. -/
def locate (c : Condition) (s : Schema ρ) (scope : Scope) (path : String) :
    Except QueryError (Located ρ) := do
  let (id, p) ← s.locate c.property
  let h ← c.handler p scope path
  let d ← c.deserializer p scope path
  .ok ⟨id, p, h, d⟩

/-- The error of a text that is no value of the target. -/
def unreadable (c : Condition) (l : Located ρ) (path : String) (f : ReadFault) : QueryError :=
  .deserialize l.property.name c.value l.target.display path f

/-- The error of an operator that refuses its operands. -/
def refused (c : Condition) (l : Located ρ) (path : String) : OperandError → QueryError
  | .notNullable type => .notNullable l.property.name type (c.context path)
  | .unsupported reason => .unsupportedOperand c.operator l.property.name path reason

/-- The log record of a compiled condition. -/
def record (c : Condition) (l : Located ρ) (path : String) (e : Expr) : Log.Record :=
  ⟨.trace, Log.compileTarget, path ++ ": " ++ l.property.name ++ " " ++ c.operator ++ " "
    ++ Text.quote c.value ++ " -> " ++ e.display⟩

/-- A leaf at a path, in its scope. -/
def compile (c : Condition) (s : Schema ρ) (scope : Scope) (path : String) : Traced Expr := do
  let l ← .ofExcept (c.locate s scope path)
  let value ← .ask l.deserializer c.value l.target (c.unreadable l path)
  let e ← .ofExcept ((l.condition value).mapError (c.refused l path))
  .log (c.record l path e)
  pure (l.guarded e)

end Condition

/-! ### Trees -/

/-- The two conditions joined. -/
def Logic.join : Logic → Expr → Expr → Expr
  | .and => .and
  | .or => .or

namespace FilterNode

/-- A tree at a path, in the scope above it. -/
def compile (s : Schema ρ) : FilterNode → Scope → String → Traced Expr
  | leaf c o, scope, path => c.compile s (scope.enter o) path
  | branch l g r o, scope, path => do
    let left ← l.compile s (scope.enter o) (leftOf path)
    let right ← r.compile s (scope.enter o) (rightOf path)
    pure (g.join left right)

/-- A tree from its root, below given overrides. -/
def compileBelow (n : FilterNode) (s : Schema ρ) (config : Config) (inherited : Overrides) :
    Traced Expr :=
  n.compile s ⟨config, inherited⟩ rootPath

end FilterNode

/-! ### Predicates -/

/-- A compiled filter with the schema that it was compiled for. -/
structure Predicate (ρ : Type) where
  schema : Schema ρ
  expr : Expr

namespace Predicate

/-- The row meets the condition. -/
def holds (p : Predicate ρ) (row : ρ) : Bool :=
  p.expr.test p.schema row

/-- The condition with the name of the row. -/
def display (p : Predicate ρ) : String :=
  "|it| " ++ p.expr.display

/-- The schema's name and the condition by constructor. -/
def inspect (p : Predicate ρ) : String :=
  "Predicate \x7b schema: " ++ Text.quote p.schema.name ++ ", expr: " ++ p.expr.inspect ++ " \x7d"

/-- The log record of a compiled filter. -/
def record (p : Predicate ρ) : Log.Record :=
  ⟨.debug, Log.compileTarget, p.schema.name ++ ": filter " ++ p.display⟩

end Predicate

/-- A filter compiled under a configuration. -/
def FilterNode.predicate (n : FilterNode) (s : Schema ρ) (config : Config) :
    Traced (Predicate ρ) := do
  let e ← n.compileBelow s config .none
  let p : Predicate ρ := ⟨s, e⟩
  .log p.record
  pure p

end RowQuery
