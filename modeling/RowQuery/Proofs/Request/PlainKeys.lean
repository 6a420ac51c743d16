import RowQuery.Proofs.Request.Ordering

/-!
# Sort keys that change nothing

Two things in a list of sort keys never change what it sorts to. A wish for absent values to come
lowest adds a step on presence, and absent values come lowest without it. A key whose property an
earlier key has, in the same case or another, is only asked about rows that the earlier one does not
tell apart; there are then two equal values, and no direction tells those apart either.

So a list of keys can be made plain and distinct. It still compiles, since each key that is left is
one that compiled and wants no more than it did, and it sorts any query in the same way. Nothing has
to be known of the rows, nor of what the query has been sorted by before.

## Main definitions

* `SortKey.plain`: a key without its wish about absent values.
* `SortKey.distinct`: the keys whose property no earlier key has.

## Main results

* `SortKey.orderRows_map_plain`, `SortKey.orderRows_distinct`: both order rows as before.
* `Query.addOrder_plain_distinct`: both sort a query as before.
-/

namespace RowQuery

variable {ρ : Type} {s : Schema ρ}

namespace SortKey

/-! ### Plain keys -/

/-- The key without a wish for absent values. -/
def plain (k : SortKey) : SortKey := { k with absentLowest := false }

theorem Sortable.plain {k : SortKey} (h : k.Sortable s) : k.plain.Sortable s := by
  obtain ⟨i, p, hp, -⟩ := h
  exact ⟨i, p, hp, fun hlow => by cases hlow⟩

/-- The order of rows by some keys is one by their properties and directions alone. -/
theorem orderRows_map_plain (s : Schema ρ) (keys : List SortKey) :
    orderRows s (keys.map plain) = orderRows s keys := by
  funext a b
  induction keys with
  | nil => rfl
  | cons k keys ih =>
    rw [List.map_cons, orderRows, orderRows, ih]
    rfl

/-! ### Distinct keys -/

/-- The keys whose property is none of the names, nor the property of an earlier key. -/
def distinctFrom (seen : List String) : List SortKey → List SortKey
  | [] => []
  | k :: keys =>
    let rest := distinctFrom (k.property :: seen) keys
    if seen.any (Text.sameName k.property) then rest else k :: rest

/-- The keys whose property is not the property of an earlier key. -/
def distinct (keys : List SortKey) : List SortKey := distinctFrom [] keys

theorem distinctFrom_sublist (seen : List String) (keys : List SortKey) :
    (distinctFrom seen keys).Sublist keys := by
  induction keys generalizing seen with
  | nil => exact .slnil
  | cons k keys ih =>
    rw [distinctFrom]
    split
    · exact (ih _).cons k
    · exact (ih _).cons_cons k

theorem distinct_sublist (keys : List SortKey) : (distinct keys).Sublist keys :=
  distinctFrom_sublist [] keys

/-- The two rows have the same value under the name, as far as sorting goes. -/
def Ties (s : Schema ρ) (name : String) (a b : ρ) : Prop :=
  ∀ i p, s.find? name = some (i, p) → (p.get a).sortOrder (p.get b) = .eq

theorem orderOn_eq_eq_iff {k : SortKey} {a b : ρ} :
    k.orderOn s a b = .eq ↔ Ties s k.property a b := by
  rw [orderOn, Ties]
  cases hp : s.find? k.property with
  | none => simp
  | some found =>
    obtain ⟨i, p⟩ := found
    cases k.descending <;> simp

theorem Ties.of_sameName {name name' : String} {a b : ρ} (h : Ties s name a b)
    (hname : Text.sameName name' name = true) : Ties s name' a b := by
  intro i p hp
  exact h i p (by rw [← Schema.find?_congr hname, hp])

/-- **A key is idle on rows that tie under its name.** On other rows the key decides, so what
follows it plays no part. -/
theorem orderRows_distinctFrom {seen : List String} {keys : List SortKey} {a b : ρ}
    (hseen : ∀ name ∈ seen, Ties s name a b) :
    orderRows s (distinctFrom seen keys) a b = orderRows s keys a b := by
  induction keys generalizing seen with
  | nil => rfl
  | cons k keys ih =>
    rw [distinctFrom]
    by_cases hties : Ties s k.property a b
    · have hrest := ih (List.forall_mem_cons.mpr ⟨hties, hseen⟩)
      have hidle : k.orderOn s a b = .eq := orderOn_eq_eq_iff.mpr hties
      split
      · rw [hrest, orderRows, hidle]
        rfl
      · rw [orderRows, orderRows, hrest]
    · have hnew : seen.any (Text.sameName k.property) = false := by
        refine List.any_eq_false.mpr fun name hname hsame => hties ?_
        exact (hseen name hname).of_sameName hsame
      have hdecides : k.orderOn s a b ≠ .eq := fun heq => hties (orderOn_eq_eq_iff.mp heq)
      rw [hnew, if_neg Bool.false_ne_true, orderRows, orderRows]
      cases horder : k.orderOn s a b with
      | eq => exact absurd horder hdecides
      | lt => rfl
      | gt => rfl

theorem orderRows_distinct (s : Schema ρ) (keys : List SortKey) :
    orderRows s (distinct keys) = orderRows s keys := by
  funext a b
  exact orderRows_distinctFrom (by simp)

end SortKey

/-! ### Sorting -/

namespace Query

/-- A query sorted by keys has its rows sorted stably by the order that the keys ask for. -/
theorem toList_pushOrders_of_chain (q : Query ρ) {keys : List SortKey} {steps : List OrderStep}
    (h : OrderStep.chain q.schema false keys = .ok steps) :
    (q.pushOrders steps).toList = stableSort (SortKey.orderRows q.schema keys) q.toList := by
  rw [toList_pushOrders_eq_stableSort q (OrderStep.isChain_of_chain h),
    OrderStep.lexicographic_eq_orderRows h]

/-- Keys that order rows as others do, and compile if each of them does, sort a query as the others
do. -/
theorem exists_addOrder_of_orderRows_eq {q : Query ρ} {keys keys' : List SortKey}
    {steps : List OrderStep} (h : OrderStep.chain q.schema false keys = .ok steps)
    (hsortable : ∀ k ∈ keys', k.Sortable q.schema)
    (horder : SortKey.orderRows q.schema keys' = SortKey.orderRows q.schema keys) :
    ∃ steps' sorted', OrderStep.chain q.schema false keys' = .ok steps' ∧
      (q.addOrder keys').outcome = .ok sorted' ∧
      sorted'.toList = (q.pushOrders steps).toList := by
  obtain ⟨steps', hsteps'⟩ := OrderStep.exists_chain_iff.mpr hsortable
  refine ⟨steps', q.pushOrders steps', hsteps',
    outcome_addOrder_eq_ok_iff.mpr ⟨steps', hsteps', rfl⟩, ?_⟩
  rw [toList_pushOrders_of_chain q hsteps', toList_pushOrders_of_chain q h, horder]

/-- **Sort keys can be made plain and distinct.** If a list of keys compiles, then so does the list
of the plain keys, that of the keys whose property no earlier key has, and that of the plain keys
with this property. A query sorted by any of the three lists has the same rows in the same order as
the query sorted by all keys as they are. -/
theorem addOrder_plain_distinct (q : Query ρ) {keys : List SortKey} {steps : List OrderStep}
    (hkeys : (OrderStep.ofKeys keys q.schema).outcome = .ok steps) :
    ∃ sorted, (q.addOrder keys).outcome = .ok sorted ∧
      ∀ keys' ∈ [keys.map SortKey.plain, SortKey.distinct keys,
          SortKey.distinct (keys.map SortKey.plain)],
        ∃ steps' sorted', (OrderStep.ofKeys keys' q.schema).outcome = .ok steps' ∧
          (q.addOrder keys').outcome = .ok sorted' ∧ sorted'.toList = sorted.toList := by
  simp only [OrderStep.outcome_ofKeys] at hkeys ⊢
  have hsortable : ∀ k ∈ keys, k.Sortable q.schema := OrderStep.exists_chain_iff.mp ⟨steps, hkeys⟩
  have hplain : ∀ k ∈ keys.map SortKey.plain, k.Sortable q.schema :=
    List.forall_mem_map.mpr fun k hk => (hsortable k hk).plain
  refine ⟨q.pushOrders steps, outcome_addOrder_eq_ok_iff.mpr ⟨steps, hkeys, rfl⟩, ?_⟩
  simp only [List.forall_mem_cons, List.not_mem_nil, false_implies, implies_true, and_true]
  refine ⟨?_, ?_, ?_⟩
  · exact exists_addOrder_of_orderRows_eq hkeys hplain (SortKey.orderRows_map_plain _ keys)
  · exact exists_addOrder_of_orderRows_eq hkeys
      (fun k hk => hsortable k ((SortKey.distinct_sublist keys).subset hk))
      (SortKey.orderRows_distinct _ keys)
  · refine exists_addOrder_of_orderRows_eq hkeys
      (fun k hk => hplain k ((SortKey.distinct_sublist _).subset hk)) ?_
    rw [SortKey.orderRows_distinct, SortKey.orderRows_map_plain]

/-- Four keys, of which one repeats a property in the other direction, and two that ask for absent
values of either kind. Two of the keys are left. -/
theorem addOrder_plain_distinct_two_of_four :
    let s : Schema (Option Int64 × Option String) :=
      ⟨"Item", [⟨"Rank", ⟨.nullable, .int⟩, fun row => row.1.elim .null .int⟩,
        ⟨"Note", ⟨.reference, .text⟩, fun row => row.2.elim .null .text⟩]⟩
    let q : Query (Option Int64 × Option String) :=
      ⟨s, [(some 3, some "b"), (none, none), (some 7, none), (some 3, none), (none, some "a")],
        [.order ⟨.property 1 "Note" ⟨.reference, .text⟩, false, false⟩]⟩
    let keys : List SortKey := [⟨"rank", true, true⟩, ⟨"RANK", false, false⟩,
      ⟨"Note", false, true⟩, ⟨"note", true, false⟩]
    SortKey.distinct (keys.map SortKey.plain) = [⟨"rank", true, false⟩, ⟨"Note", false, false⟩] ∧
      ∃ steps sorted sorted', (OrderStep.ofKeys keys q.schema).outcome = .ok steps ∧
        steps.length = 6 ∧ (q.addOrder keys).outcome = .ok sorted ∧
        (q.addOrder (SortKey.distinct (keys.map SortKey.plain))).outcome = .ok sorted' ∧
        sorted'.toList = sorted.toList ∧ sorted'.toList =
          [(some 7, none), (some 3, none), (some 3, some "b"), (none, none), (none, some "a")] := by
  intro s q keys
  obtain ⟨steps, hkeys, hlength⟩ : ∃ steps, (OrderStep.ofKeys keys q.schema).outcome = .ok steps ∧
    steps.length = 6 := ⟨_, rfl, rfl⟩
  obtain ⟨sorted, hsorted, hothers⟩ := addOrder_plain_distinct q hkeys
  have hdistinct : SortKey.distinct (keys.map SortKey.plain)
      = [⟨"rank", true, false⟩, ⟨"Note", false, false⟩] := by decide +kernel
  obtain ⟨_, sorted', -, hsorted', heq⟩ :=
    hothers (SortKey.distinct (keys.map SortKey.plain)) (by simp)
  refine ⟨hdistinct, steps, sorted, sorted', hkeys, hlength, hsorted, hsorted', heq, ?_⟩
  rw [heq]
  cases hsorted
  decide +kernel

end Query

end RowQuery
