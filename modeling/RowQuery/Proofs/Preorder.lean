/-!
# Comparisons that are total preorders on some items

A comparison need not make sense of all pairs of items for sorting to make sense of a list: it is
enough that its answers fit together among the items that the list can have. `Preorders P` says
that they do among the items with the property `P`.

On the subtype of those items the comparison is one in the sense of the core library, whose classes
are for all items of a type. So the constructions on comparisons come from there, by way of the
subtype, and `Preorders` adds what they require of `P`.

## Main definitions

* `Preorders`: a comparison is a total preorder on the items with a property.

## Main results

* `Preorders.transCmp`, `Preorders.of_transCmp`: the same on the subtype.
* `Preorders.round_eq`: going round some items makes them tie.
* `Preorders.comap`, `Preorders.swapped`, `Preorders.lex`, `Preorders.list`: by a key, backwards,
  one comparison refined by another, and item by item.
-/

namespace RowQuery

variable {α β : Type} {P : α → Prop} {Q : β → Prop} {cmp cmp' : α → α → Ordering}

/-- The comparison is a total preorder on the items with the property: backwards it gives the
reversed answer, and its answers can be chained. -/
structure Preorders (P : α → Prop) (cmp : α → α → Ordering) : Prop where
  swap : ∀ {a b}, P a → P b → cmp b a = (cmp a b).swap
  isLE_trans : ∀ {a b c}, P a → P b → P c → (cmp a b).isLE → (cmp b c).isLE → (cmp a c).isLE

/-- Items with a property are items of the subtype. -/
theorem exists_map_val {xs : List α} (h : ∀ x ∈ xs, P x) :
    ∃ ys : List {a : α // P a}, ys.map Subtype.val = xs :=
  ⟨xs.attachWith P h, by rw [List.attachWith_map_subtype_val]⟩

theorem compareLex_map (f : α → β) (cmp : β → β → Ordering) (as bs : List α) :
    List.compareLex cmp (as.map f) (bs.map f)
      = List.compareLex (fun a b => cmp (f a) (f b)) as bs := by
  induction as generalizing bs with
  | nil => cases bs <;> rfl
  | cons a as ih =>
    cases bs with
    | nil => rfl
    | cons b bs =>
      rw [List.map_cons, List.map_cons, List.compareLex_cons_cons, ih, List.compareLex_cons_cons]

namespace Preorders

/-- On the subtype it is a total preorder of all items. -/
theorem transCmp (h : Preorders P cmp) : Std.TransCmp fun a b : {a : α // P a} => cmp a.1 b.1 where
  eq_swap {a b} := h.swap b.2 a.2
  isLE_trans {a b c} hab hbc := h.isLE_trans a.2 b.2 c.2 hab hbc

theorem of_transCmp (h : Std.TransCmp fun a b : {a : α // P a} => cmp a.1 b.1) :
    Preorders P cmp where
  swap {a b} ha hb := h.eq_swap (a := ⟨b, hb⟩) (b := ⟨a, ha⟩)
  isLE_trans {a b c} ha hb hc := h.isLE_trans (a := ⟨a, ha⟩) (b := ⟨b, hb⟩) (c := ⟨c, hc⟩)

/-- Items compared by a key. -/
theorem comap {cmp : β → β → Ordering} (h : Preorders Q cmp) (f : α → β)
    (hf : ∀ a, P a → Q (f a)) : Preorders P fun a b => cmp (f a) (f b) where
  swap {a b} ha hb := h.swap (hf a ha) (hf b hb)
  isLE_trans {a b c} ha hb hc := h.isLE_trans (hf a ha) (hf b hb) (hf c hc)

/-- The comparison backwards. -/
theorem swapped (h : Preorders P cmp) : Preorders P fun a b => (cmp a b).swap where
  swap {a b} ha hb := by rw [h.swap ha hb]
  isLE_trans {a b c} ha hb hc hab hbc := by
    rw [← h.swap hb hc] at hbc
    rw [← h.swap ha hb] at hab
    rw [← h.swap ha hc]
    exact h.isLE_trans hc hb ha hbc hab

/-- Where the first comparison sees a tie the second one decides. -/
theorem lex (h : Preorders P cmp) (h' : Preorders P cmp') :
    Preorders P fun a b => (cmp a b).then (cmp' a b) := by
  have := h.transCmp
  have := h'.transCmp
  exact of_transCmp (inferInstanceAs (Std.TransCmp (compareLex _ _)))

/-- No two items are told apart. -/
theorem const : Preorders P fun _ _ => .eq where
  swap _ _ := rfl
  isLE_trans _ _ _ _ _ := rfl

/-- In a total preorder, going round some items makes them tie. -/
theorem round_eq (h : Preorders P cmp) {a b c : α} (ha : P a) (hb : P b) (hc : P c)
    (hab : (cmp a b).isLE) (hbc : (cmp b c).isLE) (hca : (cmp c a).isLE) :
    cmp a b = .eq ∧ cmp b c = .eq ∧ cmp c a = .eq := by
  have htie : ∀ {x y}, P x → P y → (cmp x y).isLE → (cmp y x).isLE → cmp x y = .eq := by
    intro x y hx hy hxy hyx
    rw [h.swap hx hy] at hyx
    cases ho : cmp x y <;> simp_all
  exact ⟨htie ha hb hab (h.isLE_trans hb hc ha hbc hca),
    htie hb hc hbc (h.isLE_trans hc ha hb hca hab),
    htie hc ha hca (h.isLE_trans ha hb hc hab hbc)⟩

/-- An item below one that is not above a third is below the third. -/
theorem lt_of_lt_of_isLE (h : Preorders P cmp) {a b c : α} (ha : P a) (hb : P b) (hc : P c)
    (hab : cmp a b = .lt) (hbc : (cmp b c).isLE) : cmp a c = .lt :=
  @Std.TransCmp.lt_of_lt_of_isLE _ _ h.transCmp ⟨a, ha⟩ ⟨b, hb⟩ ⟨c, hc⟩ hab hbc

theorem lt_of_isLE_of_lt (h : Preorders P cmp) {a b c : α} (ha : P a) (hb : P b) (hc : P c)
    (hab : (cmp a b).isLE) (hbc : cmp b c = .lt) : cmp a c = .lt :=
  @Std.TransCmp.lt_of_isLE_of_lt _ _ h.transCmp ⟨a, ha⟩ ⟨b, hb⟩ ⟨c, hc⟩ hab hbc

/-- Lists are compared item by item. -/
theorem list (h : Preorders P cmp) :
    Preorders (fun as : List α => ∀ a ∈ as, P a) (List.compareLex cmp) := by
  have := h.transCmp
  constructor
  · intro as bs has hbs
    obtain ⟨as, rfl⟩ := exists_map_val has
    obtain ⟨bs, rfl⟩ := exists_map_val hbs
    rw [compareLex_map, compareLex_map]
    exact Std.OrientedCmp.eq_swap
  · intro as bs cs has hbs hcs hab hbc
    obtain ⟨as, rfl⟩ := exists_map_val has
    obtain ⟨bs, rfl⟩ := exists_map_val hbs
    obtain ⟨cs, rfl⟩ := exists_map_val hcs
    rw [compareLex_map] at hab hbc ⊢
    exact Std.TransCmp.isLE_trans hab hbc

end Preorders

end RowQuery
