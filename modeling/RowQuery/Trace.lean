import RowQuery.QueryError
import RowQuery.Log

/-!
# Traced computations

Compiling asks deserializers and leaves log records on the way, also when it fails in the end. A
traced computation has its outcome and all that happened until then, in order.

Deserializers are functions, so asking one changes nothing that a later answer could show. The trace
is there because the questions themselves can be seen: which were asked, and in which order.

## Main definitions

* `Event`: a question to a deserializer, or a log record.
* `Traced`: a computation with the events on its way; a monad in which a failure ends the trace.

## Main results

* `Traced.bind_ok`, `Traced.bind_error`: what a step adds to the trace.
-/

namespace RowQuery

/-- Something that happens on the way. -/
inductive Event where
  /-- A deserializer with this label is asked for a value of a type. -/
  | call (label : Option String) (raw : String) (target : DataType)
  | log (r : Log.Record)
  deriving DecidableEq, Repr

/-- The outcome of a computation and what happened on the way. -/
structure Traced (α : Type) where
  events : List Event
  outcome : Except QueryError α

namespace Traced

variable {α β : Type}

/-- A result without any event. -/
def ok (a : α) : Traced α := ⟨[], .ok a⟩

/-- One computation behind the other, unless the first one fails. -/
def bind (x : Traced α) (f : α → Traced β) : Traced β :=
  match x.outcome with
  | .ok a => ⟨x.events ++ (f a).events, (f a).outcome⟩
  | .error e => ⟨x.events, .error e⟩

instance : Monad Traced where
  pure := ok
  bind := bind

theorem bind_ok {x : Traced α} {f : α → Traced β} {a : α} (h : x.outcome = .ok a) :
    x >>= f = ⟨x.events ++ (f a).events, (f a).outcome⟩ := by
  show bind x f = _
  simp [bind, h]

theorem bind_error {x : Traced α} {f : α → Traced β} {e : QueryError} (h : x.outcome = .error e) :
    x >>= f = ⟨x.events, .error e⟩ := by
  show bind x f = _
  simp [bind, h]

/-- An outcome without any event. -/
def ofExcept (x : Except QueryError α) : Traced α := ⟨[], x⟩

/-- A log record is left. -/
def log (r : Log.Record) : Traced Unit := ⟨[.log r], .ok ()⟩

/-- A deserializer is asked for a value of a type; `onFault` is the error if there is none. -/
def ask (d : Deserializer) (raw : String) (target : DataType) (onFault : ReadFault → QueryError) :
    Traced Value :=
  ⟨[.call d.label raw target], (d.read raw target).mapError onFault⟩

/-- The log records on the way. -/
def records (x : Traced α) : List Log.Record :=
  x.events.filterMap fun
    | .log r => some r
    | .call .. => none

end Traced

end RowQuery
