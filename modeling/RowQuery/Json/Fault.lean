/-!
# What can be wrong with a JSON text

A text is malformed, or it ends too early, or it is well formed and does not have the wanted
shape. At a place where the text is malformed or ends, what is reported depends on who reads on:
a reader that wants the value, one that passes over it, or one that wants one of a few tags.

## Main definitions

* `Json.Fault`: what is wrong.
* `Json.Break`: what is reported at a place where a text cannot be read on.
-/

namespace RowQuery.Json

/-- What is wrong with a JSON text. -/
inductive Fault where
  /-- The text is not JSON. -/
  | malformed
  /-- The text ends inside a value. -/
  | ended
  /-- The value does not have the wanted shape; the note says why, where there is more to say. -/
  | misfit (note : Option String)
  deriving DecidableEq, Repr

/-- A place where a text cannot be read on, as each kind of reader reports it. -/
structure Break where
  /-- The report of a reader that wants the value. -/
  read : Fault
  /-- The report of a reader that passes over the value. -/
  skip : Fault
  /-- The report of a reader that wants one of a few tags. -/
  tag : Fault
  deriving DecidableEq, Repr

namespace Break

/-- All readers report the same fault. -/
def all (f : Fault) : Break := ⟨f, f, f⟩

/-- The text is not JSON, whoever reads. -/
def malformed : Break := all .malformed

/-- The text ends, whoever reads. -/
def ended : Break := all .ended

end Break

end RowQuery.Json
