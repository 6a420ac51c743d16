import RowQuery.Binary64.Rounding
import RowQuery.Value

/-!
# Comparing values

Three comparisons. Conditions compare values of one kind, whole numbers and floating-point numbers
together; absent values and values of different kinds are not comparable. Equality in conditions
also makes two absent values equal, and lists item by item. Sorting needs an answer for any pair:
absent values come first, and different kinds are ordered by a fixed rank.

A whole number meets a floating-point number as the nearest number of floating point. Whole numbers
among themselves are compared exactly. Two whole numbers beyond 53 bits can therefore differ while
both equal one number of floating point.

## Main definitions

* `Value.asFloat?`: what a number is among the numbers of floating point.
* `Value.compare?`, `Value.equals`, `Value.sortOrder`.

## Main results

* `Value.compare?_swap`: comparing backwards reverses the answer.
-/

namespace RowQuery.Value

/-- The number of floating point nearest to a number of either kind. -/
def asFloat? : Value → Option Binary64
  | int n => some (Binary64.ofInt n.toInt)
  | float x => some x
  | _ => none

/-- The order of two values in conditions, if they are comparable. Numbers that are not both whole
meet as numbers of floating point. -/
def compare? : Value → Value → Option Ordering
  | int a, int b => some (Ord.compare a.toInt b.toInt)
  | bool a, bool b => some (Ord.compare a b)
  | text a, text b => some (Ord.compare a b)
  | instant a, instant b => some (a.compare b)
  | enum a, enum b =>
    if a.definition = b.definition then
      some (Ord.compare a.number.toInt b.number.toInt)
    else none
  | a, b => do (← a.asFloat?).compare? (← b.asFloat?)

theorem compare?_int_float (n : Int64) (x : Binary64) :
    (int n).compare? (float x) = (Binary64.ofInt n.toInt).compare? x := rfl

theorem compare?_float_int (x : Binary64) (n : Int64) :
    (float x).compare? (int n) = x.compare? (Binary64.ofInt n.toInt) := rfl

mutual

/-- Equality in conditions: absent values are equal to each other and to nothing else, lists are
equal item by item, and other values are equal if they compare as equal. -/
def equals : Value → Value → Bool
  | null, null => true
  | list a, list b => equalsItems a b
  | a, b => a.compare? b == some .eq

/-- The two lists are equal item by item. -/
def equalsItems : List Value → List Value → Bool
  | [], [] => true
  | a :: as, b :: bs => equals a b && equalsItems as bs
  | _, _ => false

end

/-- The place of a value's kind among the kinds. -/
def rank : Value → Nat
  | null => 0
  | bool _ => 1
  | int _ | float _ => 2
  | text _ => 3
  | instant _ => 4
  | enum _ => 5
  | list _ => 6

mutual

/-- The order of two values in sorting: absent values first, floating-point numbers in their total
order, lists item by item, and what is not comparable by rank. -/
def sortOrder : Value → Value → Ordering
  | null, null => .eq
  | null, _ => .lt
  | _, null => .gt
  | float a, float b => a.totalCompare b
  | list a, list b => sortOrderItems a b
  | a, b => (a.compare? b).getD (Ord.compare a.rank b.rank)

/-- The first difference decides; a list comes before its extensions. -/
def sortOrderItems : List Value → List Value → Ordering
  | [], [] => .eq
  | [], _ :: _ => .lt
  | _ :: _, [] => .gt
  | a :: as, b :: bs => (sortOrder a b).then (sortOrderItems as bs)

end

theorem compare?_swap (a b : Value) : b.compare? a = (a.compare? b).map Ordering.swap := by
  cases a <;> cases b <;> try rfl
  case bool.bool a b => exact congrArg some Std.OrientedCmp.eq_swap
  case int.int a b => exact congrArg some Std.OrientedCmp.eq_swap
  case int.float => exact Binary64.compare?_swap _ _
  case float.int => exact Binary64.compare?_swap _ _
  case float.float => exact Binary64.compare?_swap _ _
  case text.text => exact congrArg some Std.OrientedCmp.eq_swap
  case instant.instant => exact congrArg some (Instant.compare_swap _ _)
  case enum.enum a b =>
    by_cases h : a.definition = b.definition
    · simp only [compare?, h, if_true]
      exact congrArg some Std.OrientedCmp.eq_swap
    · simp [compare?, h, Ne.symm h]

end RowQuery.Value
