import Mathlib.Data.List.Forall2
import Mathlib.Data.List.Perm.Subperm
import RowQuery.Query

/-!
# Plans under any sorting

Some facts about the rows of a plan do not depend on how rows are sorted. They hold also where the
keys compare by something that is no order, and where rows are shuffled instead. All that they need
of a sorting is that it keeps the rows.

So a plan is run here with the sorting left open. The sorting by keys is one of those that may be
put in, and then the rows are those of the plan.

## Rows at places

Rows are values, and a source may hold equal ones. That no row is taken twice is therefore said of
places: the rows of a plan stand at places of the source, and no place is taken twice. Rows may
carry anything beside what their properties read, a number of each row for one, so nothing is lost
by naming the places only by their existence.

## What does depend on the sorting

A filter behind a paging step filters what is on one page, and the order decides what that is. Under
another sorting the same plan can yield another number of rows. So counting may leave the sorting
out only where no step pages, and otherwise counts the rows of a run.

## Main definitions

* `Query.Sorting`: a way to sort of which it is known that it keeps the rows.
* `Query.toListBy`, `Query.countBy`: the rows of a plan under a sorting, and their number.
* `Query.Selects`: rows that stand at places of the source, as the filters of a plan ask for.

## Main results

* `Query.toListBy_byKeys`, `Query.countBy_byKeys`: the sorting by keys gives the rows of the plan.
* `Query.runBy_subperm`: running a plan keeps each row at most as often as it was there.
* `Query.runBy_perm_of_unpaged`: without paging steps the rows that meet all filters are kept.
* `Query.count_eq_length_toList`: counting agrees with running.
* `Query.toList_selects`: no row is invented, taken twice or wrongly lost.
-/

namespace RowQuery.Query

variable {ρ : Type}

/-! ### Sortings -/

/-- A way to sort rows by keys. It may put the rows in any order, but it keeps them. -/
structure Sorting (ρ : Type) where
  sort : List OrderStep → List ρ → List ρ
  perm : ∀ keys rows, (sort keys rows).Perm rows

/-- The stable sorting by the values of the keys. -/
def Sorting.byKeys (s : Schema ρ) : Sorting ρ := ⟨sortRows s, sortRows_perm s⟩

/-- The rows that the steps leave of some rows, with keys collected and not yet sorted by. -/
def runBy (sorting : Sorting ρ) : List (Step ρ) → List ρ → List OrderStep → List ρ
  | [], rows, keys => sorting.sort keys rows
  | .filter p :: steps, rows, keys => runBy sorting steps (rows.filter p.holds) keys
  | .order o :: steps, rows, keys =>
    if o.secondary then runBy sorting steps rows (keys ++ [o])
    else runBy sorting steps (sorting.sort keys rows) [o]
  | .skip n :: steps, rows, keys => runBy sorting steps ((sorting.sort keys rows).drop n) []
  | .take n :: steps, rows, keys => runBy sorting steps ((sorting.sort keys rows).take n) []

/-- The rows of the plan, in order. -/
def toListBy (sorting : Sorting ρ) (q : Query ρ) : List ρ :=
  runBy sorting q.steps q.source []

/-- The number of rows of the plan: without paging steps those that meet all filters, and otherwise
those that a run yields. -/
def countBy (sorting : Sorting ρ) (q : Query ρ) : Nat :=
  if q.steps.any isPaging then (q.toListBy sorting).length
  else q.source.countP fun row => (predicates q.steps).all fun p => p.holds row

theorem runBy_byKeys (s : Schema ρ) (steps : List (Step ρ)) (rows : List ρ)
    (keys : List OrderStep) : runBy (.byKeys s) steps rows keys = run s steps rows keys := by
  induction steps generalizing rows keys with
  | nil => rfl
  | cons step steps ih =>
    cases step with
    | filter p => exact ih _ _
    | order o =>
      rw [runBy, run, ih, ih]
      rfl
    | skip n => exact ih _ _
    | take n => exact ih _ _

theorem toListBy_byKeys (q : Query ρ) : q.toListBy (.byKeys q.schema) = q.toList :=
  runBy_byKeys q.schema q.steps q.source []

theorem countBy_byKeys (q : Query ρ) : q.countBy (.byKeys q.schema) = q.count := by
  rw [countBy, toListBy_byKeys, count]

/-! ### What a run keeps

By induction on the steps: each of them permutes the rows, or leaves some of them out. -/

section

variable (sorting : Sorting ρ)

/-- **Running a plan keeps each row at most as often as it was there.** -/
theorem runBy_subperm (steps : List (Step ρ)) (rows : List ρ) (keys : List OrderStep) :
    (runBy sorting steps rows keys).Subperm rows := by
  induction steps generalizing rows keys with
  | nil => exact (sorting.perm keys rows).subperm
  | cons step steps ih =>
    have hsorted : (sorting.sort keys rows).Subperm rows := (sorting.perm keys rows).subperm
    cases step with
    | filter p => exact (ih _ keys).trans List.filter_sublist.subperm
    | order o =>
      rw [runBy]
      split
      · exact ih rows _
      · exact (ih _ _).trans hsorted
    | skip n => exact ((ih _ _).trans (List.drop_sublist n _).subperm).trans hsorted
    | take n => exact ((ih _ _).trans (List.take_sublist n _).subperm).trans hsorted

/-- **The rows of a run meet every filter of the plan.** What a filter leaves out does not come back
behind it. -/
theorem holds_of_mem_runBy {steps : List (Step ρ)} {rows : List ρ} {keys : List OrderStep}
    {row : ρ} (h : row ∈ runBy sorting steps rows keys) {p : Predicate ρ}
    (hp : .filter p ∈ steps) : p.holds row = true := by
  induction steps generalizing rows keys with
  | nil => cases hp
  | cons step steps ih =>
    rcases List.mem_cons.mp hp with rfl | htail
    · have hkept := (runBy_subperm sorting steps (rows.filter p.holds) keys).subset h
      exact (List.mem_filter.mp hkept).2
    · cases step with
      | filter p' => exact ih h htail
      | order o =>
        rw [runBy] at h
        split at h
        · exact ih h htail
        · exact ih h htail
      | skip n => exact ih h htail
      | take n => exact ih h htail

/-- **Without paging steps a run keeps the rows that meet all filters.** The invariant is about the
rows up to their order, so the filters may stand on either side of an order step. -/
theorem runBy_perm_of_unpaged {steps : List (Step ρ)} (h : steps.any isPaging = false)
    (rows : List ρ) (keys : List OrderStep) :
    (runBy sorting steps rows keys).Perm
      (rows.filter fun row => (predicates steps).all fun p => p.holds row) := by
  induction steps generalizing rows keys with
  | nil => simpa [runBy, predicates] using sorting.perm keys rows
  | cons step steps ih =>
    rw [List.any_cons, Bool.or_eq_false_iff] at h
    cases step with
    | filter p =>
      have hfilter := ih h.2 (rows.filter p.holds) keys
      rw [List.filter_filter] at hfilter
      simpa [runBy, predicates, Bool.and_comm] using hfilter
    | order o =>
      rw [runBy]
      split
      · exact ih h.2 _ _
      · exact (ih h.2 _ _).trans ((sorting.perm keys rows).filter _)
    | skip n => cases h.1
    | take n => cases h.1

end

theorem mem_predicates {steps : List (Step ρ)} {p : Predicate ρ} :
    p ∈ predicates steps ↔ .filter p ∈ steps := by
  rw [predicates, List.mem_filterMap]
  constructor
  · rintro ⟨step, hstep, h⟩
    cases step <;> cases h
    exact hstep
  · intro h
    exact ⟨_, h, rfl⟩

/-! ### Counting -/

theorem length_toListBy (sorting : Sorting ρ) (q : Query ρ) :
    (q.toListBy sorting).length = q.countBy sorting := by
  rw [countBy]
  cases h : q.steps.any isPaging with
  | true => rfl
  | false =>
    rw [if_neg (by simp), List.countP_eq_length_filter]
    exact (runBy_perm_of_unpaged sorting h q.source []).length_eq

theorem length_toList (q : Query ρ) : q.toList.length = q.count := by
  rw [← toListBy_byKeys, ← countBy_byKeys, length_toListBy]

/-- **Counting agrees with running**, for all rows and all steps. The predicates and the keys may be
any expressions, and the sorting any that keeps the rows. -/
theorem count_eq_length_toList (q : Query ρ) :
    q.count = q.toList.length ∧
      ∀ sorting : Sorting ρ, q.countBy sorting = (q.toListBy sorting).length := by
  refine ⟨(length_toList q).symm, ?_⟩
  intro sorting
  exact (length_toListBy sorting q).symm

/-! ### Places -/

/-- The rows stand at these places of the source, and no place is taken twice. -/
structure Placed (source : List ρ) (places : List Nat) (rows : List ρ) : Prop where
  nodup : places.Nodup
  reads : List.Forall₂ (fun i row => source[i]? = some row) places rows

namespace Placed

variable {source rows rows' : List ρ} {places : List Nat}

theorem self (source : List ρ) : Placed source (List.range source.length) source := by
  refine ⟨List.nodup_range, List.forall₂_iff_get.mpr ⟨List.length_range, ?_⟩⟩
  intro i hi hi'
  simp

theorem perm (h : Placed source places rows) (hp : rows'.Perm rows) :
    ∃ places', places'.Perm places ∧ Placed source places' rows' := by
  obtain ⟨places', hreads, hperm⟩ := List.perm_comp_forall₂ hp h.reads.flip
  exact ⟨places', hperm, hperm.nodup_iff.mpr h.nodup, hreads.flip⟩

/-- Filtering the rows is filtering the places. -/
theorem filter (h : Placed source places rows) (f : ρ → Bool) :
    Placed source (places.filter fun i => source[i]?.any f) (rows.filter f) := by
  refine ⟨h.nodup.filter _, List.rel_filter ?_ h.reads⟩
  intro i row hi
  simp [hi]

theorem sublist (h : Placed source places rows) (hs : rows'.Sublist rows) :
    ∃ places', places'.Sublist places ∧ Placed source places' rows' := by
  obtain ⟨nodup, reads⟩ := h
  induction hs generalizing places with
  | slnil => exact ⟨places, .refl _, nodup, reads⟩
  | cons row hs ih =>
    cases reads with
    | cons hrow reads =>
      obtain ⟨places', hsub, hplaced⟩ := ih nodup.of_cons reads
      exact ⟨places', hsub.cons _, hplaced⟩
  | cons_cons row hs ih =>
    cases reads with
    | @cons i _ _ _ hrow reads =>
      obtain ⟨places', hsub, hplaced⟩ := ih nodup.of_cons reads
      have hnodup : (i :: places').Nodup := nodup.sublist (hsub.cons_cons i)
      exact ⟨i :: places', hsub.cons_cons i, hnodup, .cons hrow hplaced.reads⟩

theorem subperm (h : Placed source places rows) (hs : rows'.Subperm rows) :
    ∃ places', Placed source places' rows' := by
  obtain ⟨kept, hperm, hsub⟩ := hs
  obtain ⟨_, _, hkept⟩ := h.sublist hsub
  obtain ⟨places', _, hplaced⟩ := hkept.perm hperm.symm
  exact ⟨places', hplaced⟩

end Placed

/-! ### What a plan selects -/

/-- The rows stand at these places of the query's source. They meet all filters of the plan, and
without paging steps no row that does is missing. -/
structure Selects (q : Query ρ) (places : List Nat) (rows : List ρ) : Prop where
  placed : Placed q.source places rows
  meets : ∀ p, .filter p ∈ q.steps → ∀ row ∈ rows, p.holds row = true
  complete : q.steps.any isPaging = false → ∀ i row, q.source[i]? = some row →
    (∀ p, .filter p ∈ q.steps → p.holds row = true) → i ∈ places

theorem toListBy_selects (sorting : Sorting ρ) (q : Query ρ) :
    ∃ places, q.Selects places (q.toListBy sorting) := by
  have hmeets : ∀ p, .filter p ∈ q.steps → ∀ row ∈ q.toListBy sorting, p.holds row = true := by
    intro p hp row hrow
    exact holds_of_mem_runBy sorting hrow hp
  cases h : q.steps.any isPaging with
  | true =>
    obtain ⟨places, hplaced⟩ := (Placed.self q.source).subperm (runBy_subperm sorting q.steps _ [])
    exact ⟨places, hplaced, hmeets, by simp [h]⟩
  | false =>
    have hfiltered := (Placed.self q.source).filter fun row =>
      (predicates q.steps).all fun p => p.holds row
    obtain ⟨places, hperm, hplaced⟩ :=
      hfiltered.perm (runBy_perm_of_unpaged sorting h q.source [])
    refine ⟨places, hplaced, hmeets, ?_⟩
    intro _ i row hi hrow
    have hlt : i < q.source.length := (List.getElem?_eq_some_iff.mp hi).1
    have hall : ((predicates q.steps).all fun p => p.holds row) = true := by
      rw [List.all_eq_true]
      intro p hp
      exact hrow p (mem_predicates.mp hp)
    refine hperm.mem_iff.mpr (List.mem_filter.mpr ⟨List.mem_range.mpr hlt, ?_⟩)
    rw [hi]
    exact hall

/-- **No row is invented, taken twice or wrongly lost.** This is for all rows and all steps, for the
sorting by keys and for any other one. -/
theorem toList_selects (q : Query ρ) :
    (∃ places, q.Selects places q.toList) ∧
      ∀ sorting : Sorting ρ, ∃ places, q.Selects places (q.toListBy sorting) := by
  refine ⟨?_, fun sorting => toListBy_selects sorting q⟩
  rw [← toListBy_byKeys]
  exact toListBy_selects _ q

end RowQuery.Query
