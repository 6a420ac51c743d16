/-!
# Points in time

An instant is a count of seconds from the start of 1970, in universal time, and of nanoseconds. A
leap second is the second before it with a billion nanoseconds more, so instants are ordered by
the two counts.

## Main definitions

* `Instant`: the two counts.
* `Instant.compare`: the order in time.

## Main results

* `Instant.compare_swap`, `Instant.compare_self`: the order is symmetric and reflexive.
-/

namespace RowQuery

/-- A point in time: seconds since the start of 1970 in universal time, and nanoseconds, of which a
leap second has a billion or more. -/
structure Instant where
  seconds : Int
  nanos : Nat
  deriving DecidableEq, Repr

namespace Instant

/-- The nanoseconds of a second. -/
def secondNanos : Nat := 1000000000

/-- Earlier instants come first. -/
def compare (a b : Instant) : Ordering :=
  (Ord.compare a.seconds b.seconds).then (Ord.compare a.nanos b.nanos)

theorem compare_self (a : Instant) : a.compare a = .eq := by
  simp [compare]

theorem compare_swap (a b : Instant) : b.compare a = (a.compare b).swap := by
  simp [compare, Ordering.swap_then, ← Std.OrientedCmp.eq_swap]

end Instant

end RowQuery
