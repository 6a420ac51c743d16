/-!
# Stable sorting

Items are put one after the other into a sorted list, each behind all items that it does not
precede. Items that compare as equal stay in their order.

The comparison is any function. Where it is a total preorder the result is the one sorted list that
keeps equal items in order; where it is not, the result depends on which pairs are compared, and
comparing each item with those before it, from the last one down, is part of what this sorting is.

## Main definitions

* `insertLast`: an item into a list that is sorted backwards.
* `stableSort`: the sorted list.

## Main results

* `stableSort_perm`: sorting keeps the items and their number.
-/

namespace RowQuery

variable {α : Type}

/-- An item moves from the end of a list towards its start past all items that it precedes. The
list stands backwards. -/
def insertLast (compare : α → α → Ordering) (x : α) : List α → List α
  | [] => [x]
  | y :: ys => if compare x y = .lt then y :: insertLast compare x ys else x :: y :: ys

/-- The items in order, equal ones as they stood. -/
def stableSort (compare : α → α → Ordering) (xs : List α) : List α :=
  (xs.foldl (fun sorted x => insertLast compare x sorted) []).reverse

theorem insertLast_perm (compare : α → α → Ordering) (x : α) (ys : List α) :
    (insertLast compare x ys).Perm (x :: ys) := by
  induction ys with
  | nil => exact .refl _
  | cons y ys ih =>
    unfold insertLast
    split
    · exact (ih.cons y).trans (.swap x y ys)
    · exact .refl _

theorem foldl_insertLast_perm (compare : α → α → Ordering) (xs sorted : List α) :
    (xs.foldl (fun s x => insertLast compare x s) sorted).Perm (xs ++ sorted) := by
  induction xs generalizing sorted with
  | nil => exact .refl _
  | cons x xs ih =>
    exact (ih _).trans (((insertLast_perm compare x sorted).append_left xs).trans
      List.perm_middle)

theorem stableSort_perm (compare : α → α → Ordering) (xs : List α) :
    (stableSort compare xs).Perm xs := by
  have h := foldl_insertLast_perm compare xs []
  rw [List.append_nil] at h
  exact (List.reverse_perm _).trans h

end RowQuery
