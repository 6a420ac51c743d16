import RowQuery.Proofs.Preorder
import RowQuery.Query.StableSort

/-!
# Stable sorting as a property

For a total preorder there is one way to sort a list stably, and it can be recognised without
looking at any algorithm: the result is in order, and for each item the items that tie with it stand
in it as they stood before. `StablySorted` says that. It does not mention that items are kept,
because every item ties with itself.

## Why a property

What stable sorting does together with other operations is read off the property. A filter keeps
both of its parts. Sorting twice is sorting once, if the second comparison tells apart all that the
first one does: only the ties of the second comparison matter, and the first sorting has not moved
them. No induction over an algorithm is needed for either, and two algorithms agree as soon as both
have the property.

## Where the comparison is not a preorder everywhere

Rows are compared by what their properties read, and that is a total preorder only as far as the
rows are typed. Sorting commutes with every map, in particular with the way from a subtype, so the
laws hold as well for lists whose items have a property `P`, if the comparison `Preorders P`.

## Main definitions

* `StablySorted`: the second list is the first one, stably sorted.
* `IsStableSort`: the same, said of permutations and of the items of the list alone.

## Main results

* `StablySorted.unique`, `Preorders.isStableSort_unique`: there is one such list.
* `stablySorted_stableSort`, `stablySorted_mergeSort`: the insertion sort and the merge sort of the
  core library yield it.
* `map_stableSort`: sorting commutes with maps.
* `Preorders.stableSort_eq_mergeSort`, `Preorders.filter_stableSort`,
  `Preorders.stableSort_stableSort`, `Preorders.stableSort_then`: the laws on items with a property.
-/

namespace RowQuery

variable {α β : Type} {cmp cmp' : α → α → Ordering}

/-! ### The property -/

/-- The item ties with another one. -/
def ties (cmp : α → α → Ordering) (a b : α) : Bool :=
  cmp a b == .eq

/-- The second list is the first one, stably sorted: it is in order, and the items that tie with any
one item stand as they stood. -/
structure StablySorted (cmp : α → α → Ordering) (xs ys : List α) : Prop where
  ordered : ys.Pairwise fun a b => (cmp a b).isLE
  stable : ∀ a, ys.filter (ties cmp a) = xs.filter (ties cmp a)

theorem ties_eq_true {a b : α} : ties cmp a b = true ↔ cmp a b = .eq := by
  simp [ties]

theorem ties_self [Std.TransCmp cmp] (a : α) : ties cmp a a = true := by
  rw [ties_eq_true]
  exact Std.ReflCmp.compare_self

theorem StablySorted.mem_iff [Std.TransCmp cmp] {xs ys : List α} (h : StablySorted cmp xs ys)
    {a : α} : a ∈ ys ↔ a ∈ xs := by
  have hmem : a ∈ ys.filter (ties cmp a) ↔ a ∈ xs.filter (ties cmp a) := by rw [h.stable]
  rwa [List.mem_filter, List.mem_filter, and_iff_left (ties_self a),
    and_iff_left (ties_self a)] at hmem

/-- An item of a list in order is not below the head. -/
theorem StablySorted.head_isLE [Std.TransCmp cmp] {xs ys : List α} {y a : α}
    (h : StablySorted cmp xs (y :: ys)) (ha : a ∈ xs) : (cmp y a).isLE := by
  rcases List.mem_cons.mp (h.mem_iff.mpr ha) with rfl | ha
  · exact Std.ReflCmp.isLE_rfl
  · exact (List.pairwise_cons.mp h.ordered).1 a ha

/-- Both heads are lowest, so they tie, and each heads its ties. -/
theorem StablySorted.head_eq [Std.TransCmp cmp] {xs ys zs : List α} {y z : α}
    (hy : StablySorted cmp xs (y :: ys)) (hz : StablySorted cmp xs (z :: zs)) : y = z := by
  have hyz : (cmp y z).isLE := hy.head_isLE (hz.mem_iff.mp List.mem_cons_self)
  have hzy : (cmp z y).isLE := hz.head_isLE (hy.mem_iff.mp List.mem_cons_self)
  have htie : ties cmp y z = true := ties_eq_true.mpr (Std.OrientedCmp.isLE_antisymm hyz hzy)
  have h : (y :: ys).filter (ties cmp y) = (z :: zs).filter (ties cmp y) := by
    rw [hy.stable, hz.stable]
  rw [List.filter_cons_of_pos (ties_self y), List.filter_cons_of_pos htie] at h
  exact (List.cons.inj h).1

/-- **There is one stably sorted list.** -/
theorem StablySorted.unique [Std.TransCmp cmp] {xs ys zs : List α} (hy : StablySorted cmp xs ys)
    (hz : StablySorted cmp xs zs) : ys = zs := by
  induction ys generalizing xs zs with
  | nil =>
    have hnil : zs = [] := List.eq_nil_iff_forall_not_mem.mpr fun a ha => by
      simpa using hy.mem_iff.mpr (hz.mem_iff.mp ha)
    exact hnil.symm
  | cons y ys ih =>
    cases zs with
    | nil => simpa using hz.mem_iff.mpr (hy.mem_iff.mp List.mem_cons_self)
    | cons z zs =>
      obtain rfl := hy.head_eq hz
      have hys : StablySorted cmp ys ys := ⟨(List.pairwise_cons.mp hy.ordered).2, fun _ => rfl⟩
      have hzs : StablySorted cmp ys zs := by
        refine ⟨(List.pairwise_cons.mp hz.ordered).2, fun a => ?_⟩
        have h : (y :: zs).filter (ties cmp a) = (y :: ys).filter (ties cmp a) := by
          rw [hy.stable, hz.stable]
        rw [List.filter_cons, List.filter_cons] at h
        split at h
        · exact (List.cons.inj h).2
        · exact h
      rw [ih hys hzs]

theorem filter_filter_comm (p q : α → Bool) (xs : List α) :
    (xs.filter p).filter q = (xs.filter q).filter p := by
  rw [List.filter_filter, List.filter_filter]
  simp only [Bool.and_comm]

/-- A filter leaves a stably sorted list stably sorted. -/
theorem StablySorted.filter {xs ys : List α} (h : StablySorted cmp xs ys) (p : α → Bool) :
    StablySorted cmp (xs.filter p) (ys.filter p) := by
  refine ⟨h.ordered.filter p, fun a => ?_⟩
  rw [filter_filter_comm, filter_filter_comm p, h.stable]

/-- A second sorting makes up for the first one, if what ties for it tied before. -/
theorem StablySorted.trans {xs ys zs : List α} (h : StablySorted cmp xs ys)
    (h' : StablySorted cmp' ys zs) (hfine : ∀ a b, cmp' a b = .eq → cmp a b = .eq) :
    StablySorted cmp' xs zs := by
  refine ⟨h'.ordered, fun a => ?_⟩
  have hties : ∀ ws : List α,
      ws.filter (ties cmp' a) = (ws.filter (ties cmp a)).filter (ties cmp' a) := by
    intro ws
    rw [List.filter_filter]
    refine List.filter_congr fun b _ => ?_
    cases hb : ties cmp' a b with
    | false => rfl
    | true => rw [ties_eq_true.mpr (hfine a b (ties_eq_true.mp hb))]; rfl
  rw [h'.stable, hties ys, h.stable, ← hties xs]

/-- Sorting twice is sorting once by the second comparison refined by the first one. What ties for
the second comparison stands as the first sorting has left it, so it is in order there. -/
theorem StablySorted.refine [Std.TransCmp cmp] [Std.TransCmp cmp'] {xs ys zs : List α}
    (h : StablySorted cmp xs ys) (h' : StablySorted cmp' ys zs) :
    StablySorted (fun a b => (cmp' a b).then (cmp a b)) xs zs := by
  constructor
  · rw [List.pairwise_iff_forall_sublist]
    intro a b hab
    rw [Ordering.isLE_then_iff_or]
    have hle : (cmp' a b).isLE := (List.pairwise_iff_forall_sublist.mp h'.ordered) hab
    cases htie : cmp' a b with
    | lt => exact .inl rfl
    | gt => rw [htie] at hle; cases hle
    | eq =>
      have hpair : [a, b].filter (ties cmp' a) = [a, b] := by
        simp [ties_self, ties_eq_true.mpr htie]
      have hsub : [a, b].Sublist ys := by
        have hfilter := hab.filter (ties cmp' a)
        rw [hpair, h'.stable] at hfilter
        exact hfilter.trans List.filter_sublist
      exact .inr ⟨rfl, (List.pairwise_iff_forall_sublist.mp h.ordered) hsub⟩
  · intro a
    have hties : ∀ ws : List α, ws.filter (ties (fun a b => (cmp' a b).then (cmp a b)) a)
        = (ws.filter (ties cmp' a)).filter (ties cmp a) := by
      intro ws
      rw [List.filter_filter]
      refine List.filter_congr fun b _ => ?_
      rw [Bool.eq_iff_iff, Bool.and_eq_true, ties_eq_true, ties_eq_true, ties_eq_true,
        Ordering.then_eq_eq]
      exact and_comm
    rw [hties, hties, h'.stable, filter_filter_comm, h.stable, filter_filter_comm]

/-! ### The insertion sort -/

/-- Items that tie stay in place: the new item goes past none of them. The lists stand backwards. -/
theorem filter_ties_insertLast [Std.TransCmp cmp] (a x : α) (ys : List α) :
    (insertLast cmp x ys).filter (ties cmp a) = (x :: ys).filter (ties cmp a) := by
  induction ys with
  | nil => rfl
  | cons y ys ih =>
    rw [insertLast]
    split
    · rename_i hlt
      -- `x` goes past `y`, so not both of them tie with `a`.
      have hnot : ties cmp a x = true → ties cmp a y = false := by
        intro hx
        have hay : cmp a y = .lt := by rw [Std.TransCmp.congr_left (ties_eq_true.mp hx), hlt]
        rw [ties, hay]
        rfl
      by_cases hx : ties cmp a x = true
      · have hy : ¬ ties cmp a y = true := by rw [hnot hx]; decide
        rw [List.filter_cons_of_neg hy, ih, List.filter_cons_of_pos hx, List.filter_cons_of_pos hx,
          List.filter_cons_of_neg hy]
      · rw [List.filter_cons, ih, List.filter_cons_of_neg hx, List.filter_cons_of_neg hx,
          List.filter_cons]
    · rfl

theorem pairwise_insertLast [Std.TransCmp cmp] {x : α} {ys : List α}
    (h : ys.Pairwise fun a b => (cmp b a).isLE) :
    (insertLast cmp x ys).Pairwise fun a b => (cmp b a).isLE := by
  induction ys with
  | nil => exact List.pairwise_singleton _ x
  | cons y ys ih =>
    obtain ⟨hy, hys⟩ := List.pairwise_cons.mp h
    rw [insertLast]
    split
    · rename_i hlt
      refine List.pairwise_cons.mpr ⟨fun a ha => ?_, ih hys⟩
      rcases List.mem_cons.mp ((insertLast_perm cmp x ys).mem_iff.mp ha) with rfl | ha
      · rw [hlt]; rfl
      · exact hy a ha
    · rename_i hnlt
      have hyx : (cmp y x).isLE := by
        rw [← Std.OrientedCmp.isGE_iff_isLE, Ordering.isGE_iff_ne_lt]
        exact hnlt
      refine List.pairwise_cons.mpr ⟨fun a ha => ?_, h⟩
      rcases List.mem_cons.mp ha with rfl | ha
      · exact hyx
      · exact Std.TransCmp.isLE_trans (hy a ha) hyx

/-- The items inserted so far stand backwards before those of the start. -/
theorem filter_ties_foldl_insertLast [Std.TransCmp cmp] (a : α) (xs sorted : List α) :
    (xs.foldl (fun s x => insertLast cmp x s) sorted).filter (ties cmp a)
      = (xs.reverse ++ sorted).filter (ties cmp a) := by
  induction xs generalizing sorted with
  | nil => rfl
  | cons x xs ih =>
    rw [List.foldl_cons, ih, List.filter_append, filter_ties_insertLast, ← List.filter_append,
      List.reverse_cons, List.append_assoc, List.singleton_append]

theorem pairwise_foldl_insertLast [Std.TransCmp cmp] (xs : List α) {sorted : List α}
    (h : sorted.Pairwise fun a b => (cmp b a).isLE) :
    (xs.foldl (fun s x => insertLast cmp x s) sorted).Pairwise fun a b => (cmp b a).isLE := by
  induction xs generalizing sorted with
  | nil => exact h
  | cons x xs ih => exact ih (pairwise_insertLast h)

theorem stablySorted_stableSort [Std.TransCmp cmp] (xs : List α) :
    StablySorted cmp xs (stableSort cmp xs) := by
  refine ⟨?_, fun a => ?_⟩
  · rw [stableSort, List.pairwise_reverse]
    exact pairwise_foldl_insertLast xs .nil
  · rw [stableSort, List.filter_reverse, filter_ties_foldl_insertLast, List.append_nil,
      ← List.filter_reverse, List.reverse_reverse]

/-- Where no items are told apart, all stay in place. -/
theorem stableSort_const (xs : List α) : stableSort (fun _ _ => .eq) xs = xs := by
  have : Std.TransCmp fun _ _ : α => Ordering.eq :=
    { eq_swap := rfl, isLE_trans := fun _ _ => rfl }
  have hxs : StablySorted (fun _ _ => .eq) xs xs :=
    ⟨List.pairwise_of_forall fun _ _ => rfl, fun _ => rfl⟩
  exact (stablySorted_stableSort xs).unique hxs

/-! ### The merge sort of the core library -/

theorem stablySorted_mergeSort [Std.TransCmp cmp] (xs : List α) :
    StablySorted cmp xs (xs.mergeSort fun a b => (cmp a b).isLE) := by
  have htrans : ∀ a b c, (cmp a b).isLE → (cmp b c).isLE → (cmp a c).isLE := by
    intro a b c
    exact Std.TransCmp.isLE_trans
  have htotal : ∀ a b, (cmp a b).isLE || (cmp b a).isLE := by
    intro a b
    have hswap : cmp b a = (cmp a b).swap := Std.OrientedCmp.eq_swap
    rw [hswap]
    cases cmp a b <;> rfl
  refine ⟨List.pairwise_mergeSort htrans htotal xs, fun a => ?_⟩
  -- The ties of an item are a sublist in order, and such sublists survive.
  have hordered : (xs.filter (ties cmp a)).Pairwise fun b c => (cmp b c).isLE := by
    refine List.pairwise_of_forall_mem_list fun b hb c hc => ?_
    have hab := ties_eq_true.mp (List.mem_filter.mp hb).2
    have hac := ties_eq_true.mp (List.mem_filter.mp hc).2
    rw [← Std.TransCmp.congr_left hab, hac]
    rfl
  have hsub := (List.sublist_mergeSort htrans htotal hordered List.filter_sublist).filter
    (ties cmp a)
  rw [List.filter_filter] at hsub
  simp only [Bool.and_self] at hsub
  exact (hsub.eq_of_length ((List.mergeSort_perm xs _).filter _).length_eq.symm).symm

/-! ### Items with a property -/

theorem map_insertLast (f : α → β) (cmp : β → β → Ordering) (x : α) (ys : List α) :
    (insertLast (fun a b => cmp (f a) (f b)) x ys).map f = insertLast cmp (f x) (ys.map f) := by
  induction ys with
  | nil => rfl
  | cons y ys ih =>
    rw [insertLast, List.map_cons, insertLast]
    split
    · rw [List.map_cons, ih]
    · rfl

/-- Sorting by a key commutes with taking the key. -/
theorem map_stableSort (f : α → β) (cmp : β → β → Ordering) (xs : List α) :
    (stableSort (fun a b => cmp (f a) (f b)) xs).map f = stableSort cmp (xs.map f) := by
  have hfold : ∀ sorted : List α,
      (xs.foldl (fun s x => insertLast (fun a b => cmp (f a) (f b)) x s) sorted).map f
        = (xs.map f).foldl (fun s x => insertLast cmp x s) (sorted.map f) := by
    induction xs with
    | nil => intro sorted; rfl
    | cons x xs ih =>
      intro sorted
      rw [List.foldl_cons, ih, map_insertLast]
      rfl
  rw [stableSort, stableSort, List.map_reverse, hfold, List.map_nil]

/-! ### Sorted permutations of items with a property -/

/-- The second list has the items of the first one, in order, and items that tie stand as they
stood. Unlike `StablySorted` this says nothing of items that the first list does not have. -/
structure IsStableSort (cmp : α → α → Ordering) (xs ys : List α) : Prop where
  perm : ys.Perm xs
  ordered : ys.Pairwise fun a b => (cmp a b).isLE
  stable : ∀ a ∈ xs, ys.filter (ties cmp a) = xs.filter (ties cmp a)

namespace Preorders

variable {P : α → Prop} {xs ys zs : List α}

/-- **One stable sort.** -/
theorem stableSort_eq_mergeSort (h : Preorders P cmp) (hxs : ∀ x ∈ xs, P x) :
    stableSort cmp xs = xs.mergeSort fun a b => (cmp a b).isLE := by
  have := h.transCmp
  obtain ⟨xs, rfl⟩ := exists_map_val hxs
  rw [← map_stableSort, (stablySorted_stableSort xs).unique (stablySorted_mergeSort xs)]
  exact List.map_mergeSort fun _ _ _ _ => rfl

/-- **Filtering before or after sorting.** -/
theorem filter_stableSort (h : Preorders P cmp) (hxs : ∀ x ∈ xs, P x) (p : α → Bool) :
    (stableSort cmp xs).filter p = stableSort cmp (xs.filter p) := by
  have := h.transCmp
  obtain ⟨xs, rfl⟩ := exists_map_val hxs
  rw [← map_stableSort, List.filter_map, List.filter_map, ← map_stableSort]
  rw [((stablySorted_stableSort xs).filter _).unique (stablySorted_stableSort _)]

/-- **A later sorting absorbs an earlier one**, if it tells apart all that the earlier one does. -/
theorem stableSort_stableSort (h : Preorders P cmp) (h' : Preorders P cmp') (hxs : ∀ x ∈ xs, P x)
    (hfine : ∀ a b, cmp' a b = .eq → cmp a b = .eq) :
    stableSort cmp' (stableSort cmp xs) = stableSort cmp' xs := by
  have := h.transCmp
  have := h'.transCmp
  obtain ⟨xs, rfl⟩ := exists_map_val hxs
  rw [← map_stableSort, ← map_stableSort, ← map_stableSort]
  have htwice := (stablySorted_stableSort xs).trans (stablySorted_stableSort _)
    fun a b => hfine a.1 b.1
  rw [htwice.unique (stablySorted_stableSort xs)]

/-- Items that tie have the same ties. -/
theorem ties_congr (h : Preorders P cmp) {a b c : α} (ha : P a) (hb : P b) (hc : P c)
    (hab : cmp a b = .eq) : ties cmp a c = ties cmp b c := by
  have := h.transCmp
  let cmpP (a b : {a : α // P a}) : Ordering := cmp a.1 b.1
  have htie : cmpP ⟨a, ha⟩ ⟨c, hc⟩ = cmpP ⟨b, hb⟩ ⟨c, hc⟩ := Std.TransCmp.congr_left hab
  exact congrArg (· == .eq) htie

/-- An item that ties with none of the list has no ties in its order either. -/
theorem filter_ties_eq (h : Preorders P cmp) (hxs : ∀ x ∈ xs, P x) (hys : IsStableSort cmp xs ys)
    {a : α} (ha : P a) : ys.filter (ties cmp a) = xs.filter (ties cmp a) := by
  by_cases hb : ∃ b ∈ xs, cmp a b = .eq
  · obtain ⟨b, hb, hab⟩ := hb
    have hsame : ∀ ws : List α, (∀ w ∈ ws, P w) →
        ws.filter (ties cmp a) = ws.filter (ties cmp b) :=
      fun ws hws => List.filter_congr fun w hw => h.ties_congr ha (hxs b hb) (hws w hw) hab
    rw [hsame xs hxs, hsame ys fun y hy => hxs y (hys.perm.mem_iff.mp hy)]
    exact hys.stable b hb
  · have hnone : ∀ ws : List α, ws.Perm xs → ws.filter (ties cmp a) = [] := by
      intro ws hws
      refine List.filter_eq_nil_iff.mpr fun w hw htie => hb ⟨w, hws.mem_iff.mp hw, ?_⟩
      exact ties_eq_true.mp htie
    rw [hnone ys hys.perm, hnone xs (.refl xs)]

/-- **There is one stably sorted permutation.** -/
theorem isStableSort_unique (h : Preorders P cmp) (hxs : ∀ x ∈ xs, P x)
    (hys : IsStableSort cmp xs ys) (hzs : IsStableSort cmp xs zs) : ys = zs := by
  have := h.transCmp
  have hlift : ∀ {ws : List α} {xs' ws' : List {a : α // P a}}, xs'.map Subtype.val = xs →
      ws'.map Subtype.val = ws → IsStableSort cmp xs ws →
      StablySorted (fun a b : {a : α // P a} => cmp a.1 b.1) xs' ws' := by
    rintro ws xs' ws' rfl rfl hws
    refine ⟨List.pairwise_map.mp hws.ordered, fun a => ?_⟩
    have hfilter := h.filter_ties_eq hxs hws a.2
    rw [List.filter_map, List.filter_map] at hfilter
    exact (List.map_inj_right fun _ _ => Subtype.ext).mp hfilter
  obtain ⟨xs', hxs'⟩ := exists_map_val hxs
  obtain ⟨ys', hys'⟩ := exists_map_val fun y hy => hxs y (hys.perm.mem_iff.mp hy)
  obtain ⟨zs', hzs'⟩ := exists_map_val fun z hz => hxs z (hzs.perm.mem_iff.mp hz)
  rw [← hys', ← hzs', (hlift hxs' hys' hys).unique (hlift hxs' hzs' hzs)]

/-- **The insertion sort yields it.** -/
theorem isStableSort_stableSort (h : Preorders P cmp) (hxs : ∀ x ∈ xs, P x) :
    IsStableSort cmp xs (stableSort cmp xs) := by
  have := h.transCmp
  refine ⟨stableSort_perm cmp xs, ?_, fun a ha => ?_⟩
  · obtain ⟨xs, rfl⟩ := exists_map_val hxs
    rw [← map_stableSort, List.pairwise_map]
    exact (stablySorted_stableSort xs).ordered
  · have hP := hxs a ha
    obtain ⟨xs, rfl⟩ := exists_map_val hxs
    have hsorted : StablySorted (fun a b : {a : α // P a} => cmp a.1 b.1) xs _ :=
      stablySorted_stableSort xs
    rw [← map_stableSort, List.filter_map, List.filter_map]
    exact congrArg _ (hsorted.stable ⟨a, hP⟩)

/-- **Sorting twice is sorting once**, by the later comparison refined by the earlier one. -/
theorem stableSort_then (h : Preorders P cmp) (h' : Preorders P cmp') (hxs : ∀ x ∈ xs, P x) :
    stableSort cmp' (stableSort cmp xs) = stableSort (fun a b => (cmp' a b).then (cmp a b)) xs := by
  have := h.transCmp
  have := h'.transCmp
  have := (h'.lex h).transCmp
  obtain ⟨xs, rfl⟩ := exists_map_val hxs
  have hfirst : StablySorted (fun a b : {a : α // P a} => cmp a.1 b.1) xs _ :=
    stablySorted_stableSort xs
  have hsecond : StablySorted (fun a b : {a : α // P a} => cmp' a.1 b.1) _ _ :=
    stablySorted_stableSort (stableSort (fun a b => cmp a.1 b.1) xs)
  rw [← map_stableSort, ← map_stableSort,
    (hfirst.refine hsecond).unique (stablySorted_stableSort xs)]
  exact map_stableSort Subtype.val (fun a b => (cmp' a b).then (cmp a b)) xs

end Preorders

end RowQuery
