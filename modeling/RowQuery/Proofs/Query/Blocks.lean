import RowQuery.Proofs.Filter.Trichotomy
import RowQuery.Proofs.Request.Ordering

/-!
# Cutting a sorted list

A comparison with a constant cuts the rows that have an answer in two: those below the constant and
the others, or those above it and the others. Sorting by the same property puts the one part before
the other, and keeps each in one piece.

## Two orders

Conditions and sorting do not order values in the same way. A NaN and an absent cell have no place
among the values that conditions compare, and they have one in a sorted list; the two zeros are one
value in conditions, and sorting tells them apart. The cut does not notice. What is below in the
first order is below in the second one, so the two parts do not mix. And what the second order puts
between two values that can be compared can be compared itself, so nothing without an answer gets
into a part.

The constant is not a cell of any row, so the sort order says nothing of it. The proof goes through
it all the same, but by the order of conditions: one row is below it and the other one is not.

## Main definitions

* `Operator.Cuts`: the two operators put each answer on one side.
* `LeadingBlock`: the items with one property are together, and before all those with another one.

## Main results

* `Kind.Ordered.sortOrder_of_cut`: the two parts do not mix.
* `Kind.Ordered.allows_of_between`: the first part is in one piece.
* `Query.addOrder_keeps_cut`: a sorted query has the rows of the first part in a block before those
  of the second part.
-/

namespace RowQuery

variable {ρ : Type}

/-! ### Blocks -/

/-- The items with the property `P` stand together, and no item with the property `Q` stands among
or before them. -/
def LeadingBlock {α : Type} (P Q : α → Prop) (xs : List α) : Prop :=
  ∃ before block after, xs = before ++ block ++ after ∧ (∀ x ∈ block, P x) ∧
    (∀ x ∈ before ++ after, ¬ P x) ∧ ∀ x ∈ before ++ block, ¬ Q x

/-- An item is put before a list with its block: it joins the block, or goes before it, or stands
behind an empty one. -/
theorem LeadingBlock.cons {α : Type} {P Q : α → Prop} {x : α} {xs : List α}
    (h : LeadingBlock P Q xs) (hjoin : ∀ y ys, xs = y :: ys → ∀ b ∈ ys, P x → P b → P y)
    (hfirst : ∀ b ∈ x :: xs, P b → ¬ Q x) : LeadingBlock P Q (x :: xs) := by
  obtain ⟨before, block, after, rfl, hblock, hothers, hno⟩ := h
  by_cases hpx : P x
  · have hqx : ¬ Q x := hfirst x List.mem_cons_self hpx
    cases block with
    | nil =>
      rw [List.append_nil]
      exact ⟨[], [x], before ++ after, rfl, by simpa using hpx, hothers, by simpa using hqx⟩
    | cons b bs =>
      obtain rfl : before = [] := by
        cases before with
        | nil => rfl
        | cons y ys =>
          have hpy : P y := hjoin y _ rfl b (by simp) hpx (hblock b List.mem_cons_self)
          exact absurd hpy (hothers y (by simp))
      exact ⟨[], x :: b :: bs, after, rfl, List.forall_mem_cons.mpr ⟨hpx, hblock⟩, hothers,
        List.forall_mem_cons.mpr ⟨hqx, hno⟩⟩
  · cases block with
    | nil =>
      rw [List.append_nil]
      exact ⟨[], [], x :: (before ++ after), rfl, by simp,
        List.forall_mem_cons.mpr ⟨hpx, hothers⟩, by simp⟩
    | cons b bs =>
      have hqx : ¬ Q x := hfirst b (by simp) (hblock b List.mem_cons_self)
      exact ⟨x :: before, b :: bs, after, rfl, hblock, List.forall_mem_cons.mpr ⟨hpx, hothers⟩,
        List.forall_mem_cons.mpr ⟨hqx, hno⟩⟩

/-- A property that is kept between items has its items of an ordered list together. -/
theorem leadingBlock_of_pairwise {α : Type} {P Q : α → Prop} {le : α → α → Prop} {xs : List α}
    (hxs : xs.Pairwise le)
    (hbetween : ∀ a ∈ xs, ∀ b ∈ xs, ∀ c ∈ xs, le a b → le b c → P a → P c → P b)
    (hbelow : ∀ a ∈ xs, ∀ b ∈ xs, a = b ∨ le a b → P b → ¬ Q a) : LeadingBlock P Q xs := by
  induction xs with
  | nil => exact ⟨[], [], [], rfl, by simp, by simp, by simp⟩
  | cons x xs ih =>
    obtain ⟨hx, hxs⟩ := List.pairwise_cons.mp hxs
    have htail : LeadingBlock P Q xs := ih hxs
      (fun a ha b hb c hc => hbetween a (.tail x ha) b (.tail x hb) c (.tail x hc))
      (fun a ha b hb => hbelow a (.tail x ha) b (.tail x hb))
    refine htail.cons ?_ fun b hb => hbelow x List.mem_cons_self b hb ?_
    · rintro y ys rfl b hb
      have hyb : le y b := (List.pairwise_cons.mp hxs).1 b hb
      exact hbetween x (by simp) y (by simp) b (by simp [hb]) (hx y (by simp)) hyb
    · rcases List.mem_cons.mp hb with rfl | hb
      · exact .inl rfl
      · exact .inr (hx b hb)

/-! ### Cuts -/

namespace Operator

/-- The two operators put each answer of a comparison on one side: the first one those below, the
second one those above. -/
inductive Cuts : Operator → Operator → Prop where
  | less : Cuts lt gte
  | lessOrEqual : Cuts lte gt

variable {below above : Operator}

theorem Cuts.mem_comparing (h : Cuts below above) : below ∈ comparing ∧ above ∈ comparing := by
  cases h <;> decide

/-- They hold only where there is an answer. -/
theorem Cuts.exists_answer (h : Cuts below above) {op : Operator} (hop : op = below ∨ op = above)
    {a b : Value} (hab : op.holds a b = true) :
    ∃ o, a.compare? b = some o ∧ op.allows o = true := by
  cases hanswer : a.compare? b with
  | none => cases h <;> obtain rfl | rfl := hop <;> simp [holds, hanswer] at hab
  | some o =>
    have hmem : op ∈ comparing := by
      cases h <;> obtain rfl | rfl := hop <;> decide
    rw [holds_of_compare? hmem hanswer] at hab
    exact ⟨o, rfl, hab⟩

end Operator

namespace Kind

variable {k : Kind} {a b c v : Value} {below above : Operator}

/-- **What is below the constant sorts before what is not.** -/
theorem Ordered.sortOrder_of_cut (hcut : below.Cuts above) (ha : k.Ordered a) (hb : k.Ordered b)
    (hv : k.Ordered v) (hbelow : below.allows (a.conditionOrder v) = true)
    (habove : above.allows (b.conditionOrder v) = true) : a.sortOrder b = .lt := by
  have hpre := Ordered.preorders k
  have hswap := hpre.swap hb hv
  have hlt : a.conditionOrder b = .lt := by
    cases hcut with
    | less =>
      rw [Operator.allows_lt_iff] at hbelow
      rw [Operator.allows_gte_iff, ← hswap] at habove
      exact hpre.lt_of_lt_of_isLE ha hv hb hbelow habove
    | lessOrEqual =>
      rw [Operator.allows_lte_iff] at hbelow
      rw [Operator.allows_gt_iff, ← hswap] at habove
      exact hpre.lt_of_isLE_of_lt ha hv hb hbelow habove
  refine Value.sortOrder_of_compare?_lt ?_
  rw [ha.compare?_eq hb, hlt]

/-- **What sorts between values below the constant is below it.** -/
theorem Ordered.allows_of_between (hcut : below.Cuts above) (ha : k.Ordered a) (hb : k.Cell b)
    (hc : k.Ordered c) (hv : k.Ordered v) (hab : (a.sortOrder b).isLE) (hbc : (b.sortOrder c).isLE)
    (hbelow : below.allows (c.conditionOrder v) = true) :
    k.Ordered b ∧ below.allows (b.conditionOrder v) = true := by
  have hpre := Ordered.preorders k
  have hb : k.Ordered b := ha.of_between hb hc hab hbc
  have hle : (b.conditionOrder c).isLE := by
    refine Ordering.isLE_iff_ne_gt.mpr fun hgt => Value.compare?_ne_gt_of_isLE hbc ?_
    rw [hb.compare?_eq hc, hgt]
  refine ⟨hb, ?_⟩
  cases hcut with
  | less =>
    rw [Operator.allows_lt_iff] at hbelow ⊢
    exact hpre.lt_of_isLE_of_lt hb hc hv hle hbelow
  | lessOrEqual =>
    rw [Operator.allows_lte_iff] at hbelow ⊢
    exact hpre.isLE_trans hb hc hv hle hbelow

end Kind

/-- A cell that compares with a constant for its property is no sequence, and neither of the two is
a NaN. -/
theorem DataType.Holds.ordered_of_compare? {t : DataType} {a v : Value} {raw : String}
    (ha : t.Holds a) (hv : t.readText raw = .ok v) {o : Ordering} (ho : a.compare? v = some o) :
    t.isSequence = false ∧ t.kind.Ordered a ∧ t.kind.Ordered v := by
  cases ha with
  | absent => cases v <;> cases ho
  | scalar ht ha =>
    have hnull : v ≠ .null := by
      rintro rfl
      rw [Value.compare?_swap] at ho
      cases a <;> cases ho
    have hconstant := ordered_of_readText ht hv hnull
    exact ⟨ht, (ha.ordered_of_compare? hconstant.admits ho).1, hconstant⟩
  | sequence => cases v <;> cases ho

/-! ### Rows -/

section Rows

variable {s : Schema ρ} {name raw : String} {i : Nat} {p : Property ρ} {below above op : Operator}
  {x y z : ρ}

/-- What is known of a row that matches one of the two leaves. -/
theorem Condition.exists_answer_of_matches (hp : s.find? name = some (i, p))
    (hcut : below.Cuts above) (hop : op = below ∨ op = above) (hx : s.Typed x)
    (hm : Matches ⟨name, op.name, raw⟩ s x) :
    p.type.isSequence = false ∧ ∃ v, p.type.readText raw = .ok v ∧
      p.type.kind.Ordered (p.get x) ∧ p.type.kind.Ordered v ∧
        op.allows ((p.get x).conditionOrder v) = true := by
  have hmem : op ∈ Operator.comparing := by
    obtain rfl | rfl := hop
    · exact hcut.mem_comparing.1
    · exact hcut.mem_comparing.2
  obtain ⟨-, -, v, hv, hholds⟩ := (matches_iff hp (Operator.asksAbsence_comparing hmem)).mp hm
  rw [Operator.constantType_comparing hmem] at hv
  obtain ⟨o, ho, hallows⟩ := hcut.exists_answer hop hholds
  have hcell := hx p (Schema.mem_of_find? hp)
  obtain ⟨hseq, hordered, hconstant⟩ := hcell.ordered_of_compare? hv ho
  refine ⟨hseq, v, hv, hordered, hconstant, ?_⟩
  rwa [Value.conditionOrder_of_compare? ho]

/-- Rows on the two sides of a constant sort in this way. -/
theorem Condition.sortOrder_of_cut (hp : s.find? name = some (i, p)) (hcut : below.Cuts above)
    (hx : s.Typed x) (hy : s.Typed y) (hbelow : Matches ⟨name, below.name, raw⟩ s x)
    (habove : Matches ⟨name, above.name, raw⟩ s y) : (p.get x).sortOrder (p.get y) = .lt := by
  obtain ⟨-, v, hv, hcell, hconstant, hallows⟩ :=
    exists_answer_of_matches hp hcut (.inl rfl) hx hbelow
  obtain ⟨-, v', hv', hcell', -, hallows'⟩ := exists_answer_of_matches hp hcut (.inr rfl) hy habove
  cases hv.symm.trans hv'
  exact hcell.sortOrder_of_cut hcut hcell' hconstant hallows hallows'

/-- A row that sorts between rows below a constant is below it. -/
theorem Condition.matches_of_between (hp : s.find? name = some (i, p)) (hcut : below.Cuts above)
    (hx : s.Typed x) (hy : s.Typed y) (hz : s.Typed z)
    (hxy : ((p.get x).sortOrder (p.get y)).isLE) (hyz : ((p.get y).sortOrder (p.get z)).isLE)
    (hbelow : Matches ⟨name, below.name, raw⟩ s x) (hbelow' : Matches ⟨name, below.name, raw⟩ s z) :
    Matches ⟨name, below.name, raw⟩ s y := by
  have hmem : below ∈ Operator.comparing := hcut.mem_comparing.1
  obtain ⟨hseq, v, hv, hcell, hconstant, -⟩ :=
    exists_answer_of_matches hp hcut (.inl rfl) hx hbelow
  obtain ⟨-, v', hv', hcell', -, hallows⟩ :=
    exists_answer_of_matches hp hcut (.inl rfl) hz hbelow'
  cases hv.symm.trans hv'
  have hy := (hy p (Schema.mem_of_find? hp)).cell hseq
  obtain ⟨hordered, hallows⟩ :=
    hcell.allows_of_between hcut hy hcell' hconstant hxy hyz hallows
  obtain ⟨hkind, -⟩ := (matches_iff hp (Operator.asksAbsence_comparing hmem)).mp hbelow
  rw [← Operator.constantType_comparing hmem p.type] at hv
  rw [matches_iff_of_read hp (Operator.asksAbsence_comparing hmem) hkind hv,
    hordered.admits.isNull_eq_false, Bool.and_false,
    Operator.holds_of_compare? hmem (hordered.compare?_eq hconstant)]
  exact ⟨rfl, hallows⟩

end Rows

/-! ### Sorted queries -/

/-- A step on a property compares rows by their cells. -/
theorem OrderStep.compareOn_of_key {s : Schema ρ} {name : String} {i : Nat} {p : Property ρ}
    (hp : s.find? name = some (i, p)) {step : OrderStep}
    (hkey : step.key = .property i p.name p.type) (x y : ρ) :
    step.compareOn s x y = step.compare (p.get x) (p.get y) := by
  have hread : ∀ row, (Expr.property i p.name p.type).eval s row = p.get row :=
    Schema.read_of_property? (Schema.property?_of_find? hp)
  rw [compareOn, hkey, hread, hread]

/-- A sort key on a property compiles, if it asks for absent values only where there are some. -/
theorem OrderStep.exists_chain_singleton {s : Schema ρ} {k : SortKey} {i : Nat} {p : Property ρ}
    (hp : s.find? k.property = some (i, p))
    (hlow : k.absentLowest = true → p.type.mayBeAbsent = true) :
    ∃ steps, chain s false [k] = .ok steps :=
  exists_chain_iff.mpr (List.forall_mem_singleton.mpr ⟨i, p, hp, hlow⟩)

namespace Query

/-- Sorted ascending by a property, a query has its rows in the order of their cells. -/
theorem pairwise_toList_pushOrders {s : Schema ρ} {k : SortKey} {i : Nat} {p : Property ρ}
    {steps : List OrderStep} {rows : List ρ} (hp : s.find? k.property = some (i, p))
    (hk : k.descending = false) (hsteps : OrderStep.chain s false [k] = .ok steps)
    (hrows : ∀ row ∈ rows, s.Typed row) :
    ((new s rows).pushOrders steps).toList.Pairwise fun x y =>
      ((p.get x).sortOrder (p.get y)).isLE := by
  have hsorted : IsStableSort (lexicographic s steps) rows
      ((new s rows).pushOrders steps).toList :=
    isStableSort_pushOrders (new s rows) hsteps hrows
  refine hsorted.ordered.imp fun {x y} hle => ?_
  rw [OrderStep.lexicographic_eq_orderRows hsteps, SortKey.orderRows, SortKey.orderRows,
    Ordering.then_eq, ← OrderStep.compareOn_access hp false, OrderStep.compareOn_of_key hp rfl,
    OrderStep.compare, hk] at hle
  exact hle

/-- Sorted ascending by a property, a query has its rows below a constant in a block before those
that are not. -/
theorem leadingBlock_toList_pushOrders {s : Schema ρ} {k : SortKey} {raw : String} {i : Nat}
    {p : Property ρ} {steps : List OrderStep} {rows : List ρ}
    (hp : s.find? k.property = some (i, p)) (hk : k.descending = false)
    (hsteps : OrderStep.chain s false [k] = .ok steps) (hrows : ∀ row ∈ rows, s.Typed row)
    {below above : Operator} (hcut : below.Cuts above) :
    LeadingBlock (Condition.Matches ⟨k.property, below.name, raw⟩ s)
      (Condition.Matches ⟨k.property, above.name, raw⟩ s)
      ((new s rows).pushOrders steps).toList := by
  have htyped : ∀ row ∈ ((new s rows).pushOrders steps).toList, s.Typed row := by
    have hall := typed_toList (q := (new s rows).pushOrders steps) (by rwa [pushOrders_eq])
    rwa [schema_pushOrders] at hall
  refine leadingBlock_of_pairwise (pairwise_toList_pushOrders hp hk hsteps hrows) ?_ ?_
  · intro x hx y hy z hz hxy hyz
    exact Condition.matches_of_between hp hcut (htyped x hx) (htyped y hy) (htyped z hz) hxy hyz
  · intro x hx y hy hxy hlow hhigh
    have hlt : (p.get y).sortOrder (p.get x) = .lt :=
      Condition.sortOrder_of_cut hp hcut (htyped y hy) (htyped x hx) hlow hhigh
    have hgt : (p.get x).sortOrder (p.get y) = .gt := by
      rw [Value.sortOrder_swap (p.get y), hlt]
      rfl
    rcases hxy with rfl | hle
    · rw [hlt] at hgt
      cases hgt
    · rw [hgt] at hle
      cases hle

/-- **Filtering and sorting order values in the same way.** Of two rows on the two sides of a
constant, a step on the property puts the one below first, or last if it is descending. So a query
that is sorted by the property has the rows below the constant in a block, before all rows that are
not. -/
theorem addOrder_keeps_cut {s : Schema ρ} {name raw : String} {i : Nat} {p : Property ρ}
    (hp : s.find? name = some (i, p)) {below above : Operator} (hcut : below.Cuts above) :
    let low : Condition := ⟨name, below.name, raw⟩
    let high : Condition := ⟨name, above.name, raw⟩
    (∀ x y, s.Typed x → s.Typed y → low.Matches s x → high.Matches s y →
        ∀ step : OrderStep, step.key = .property i p.name p.type →
          step.compareOn s x y = if step.descending then .gt else .lt) ∧
      ∀ rows, (∀ row ∈ rows, s.Typed row) → ∀ absentLowest,
        (absentLowest = true → p.type.mayBeAbsent = true) →
          ∃ q, ((new s rows).addOrder [⟨name, false, absentLowest⟩]).outcome = .ok q ∧
            LeadingBlock (low.Matches s) (high.Matches s) q.toList := by
  intro low high
  refine ⟨fun x y hx hy hlow hhigh step hkey => ?_, fun rows hrows absentLowest habsent => ?_⟩
  · rw [OrderStep.compareOn_of_key hp hkey, OrderStep.compare,
      Condition.sortOrder_of_cut hp hcut hx hy hlow hhigh]
    rfl
  · obtain ⟨steps, hsteps⟩ : ∃ steps, OrderStep.chain s false [⟨name, false, absentLowest⟩]
        = .ok steps := OrderStep.exists_chain_singleton hp habsent
    exact ⟨_, outcome_addOrder_eq_ok_iff.mpr ⟨steps, hsteps, rfl⟩,
      leadingBlock_toList_pushOrders hp rfl hsteps hrows hcut⟩

/-- One row is below zero and the one with the negative zero is not. The two rows without an answer
stay out of the block. -/
theorem addOrder_keeps_cut_at_zero :
    let s : Schema (Option Binary64) :=
      ⟨"Item", [⟨"Level", ⟨.nullable, .float⟩, fun row => row.elim .null .float⟩]⟩
    let minusOne : Binary64 := ⟨0xBFF0000000000000⟩
    let minusZero : Binary64 := ⟨0x8000000000000000⟩
    let notANumber : Binary64 := ⟨0x7FF8000000000000⟩
    let rows := [some notANumber, some minusZero, none, some minusOne]
    let low : Condition := ⟨"level", "lt", "0"⟩
    let high : Condition := ⟨"level", "gte", "0"⟩
    (∀ row ∈ rows, s.Typed row) ∧ low.Matches s (some minusOne) ∧
      high.Matches s (some minusZero) ∧
      OrderStep.compareOn s ⟨.property 0 "Level" ⟨.nullable, .float⟩, true, false⟩
        (some minusOne) (some minusZero) = .gt ∧
      ∃ q, ((new s rows).addOrder [⟨"level", false, true⟩]).outcome = .ok q ∧
        LeadingBlock (low.Matches s) (high.Matches s) q.toList := by
  intro s minusOne minusZero notANumber rows low high
  have htyped (row : Option Binary64) : s.Typed row := by
    intro p hp
    obtain rfl := List.mem_singleton.mp hp
    cases row with
    | none => exact .absent
    | some x => exact .scalar rfl (.float x)
  have hlow : Condition.Matches ⟨"level", "lt", "0"⟩ s (some ⟨0xBFF0000000000000⟩) :=
    ⟨_, rfl, rfl⟩
  have hhigh : Condition.Matches ⟨"level", "gte", "0"⟩ s (some ⟨0x8000000000000000⟩) :=
    ⟨_, rfl, rfl⟩
  obtain ⟨hsteps, hblock⟩ := @addOrder_keeps_cut _ s "level" "0" 0 _ rfl _ _ .less
  exact ⟨fun row _ => htyped row, hlow, hhigh,
    hsteps _ _ (htyped _) (htyped _) hlow hhigh _ rfl,
    hblock rows (fun row _ => htyped row) true fun _ => rfl⟩

end Query

end RowQuery
