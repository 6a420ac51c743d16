import RowQuery.Proofs.Value.AcrossKinds

/-!
# Comparing values of one kind

In conditions not all values can be compared. Two values of one kind can, unless one of them is a
NaN: nothing else of a kind stands apart, since variants of one kind have one enumeration. On these
values the comparison is a total preorder, so exactly one of *less*, *equal* and *greater* holds
between any two of them, and the answers can be chained.

## Comparing and being equal

Two values are equal if they compare as equal. Only absent values and lists, which are not compared,
have an equality of their own.

## Conditions and sorting

The sort order decides every pair that a comparison decides strictly, and in the same way. It does
not keep all ties, because it tells the two zeros apart, and it has places for the NaNs: below all
numbers or above all of them, never between two. So what a condition cuts out of a sorted list by
comparing is in one piece.

## Main definitions

* `Value.Uncompared`: the pairs of which equality is not decided by comparing.
* `Value.isNaN`, `Kind.Ordered`: the values of a kind that can be compared.
* `Value.conditionOrder`: the comparison of two of them.

## Main results

* `Value.equals_comm`: equality does not depend on the side, for all values.
* `Value.compare?_eq_some_eq_iff`: comparing as equal and being equal.
* `Kind.Ordered.compare?_eq`, `Kind.Ordered.preorders`: values of one kind are comparable, and the
  comparison is a total preorder.
* `Value.sortOrder_of_compare?_lt`: what compares as less sorts before.
* `Kind.Ordered.of_between`: what sorts between comparable values is comparable.
-/

namespace RowQuery

namespace Binary64

theorem compare?_eq_some_iff {x y : Binary64} {o : Ordering} :
    x.compare? y = some o ↔
      (x.isNaN = false ∧ y.isNaN = false) ∧ Ord.compare x.key y.key = o := by
  unfold compare?
  cases x.isNaN <;> cases y.isNaN <;> simp

/-- The words of the NaNs are below those of all numbers or above them. -/
theorem isNaN_of_between {x y z : Binary64} (hx : x.isNaN = false) (hz : z.isNaN = false)
    (hxy : x.totalKey ≤ y.totalKey) (hyz : y.totalKey ≤ z.totalKey) : y.isNaN = false := by
  simp only [isNaN, decide_eq_false_iff_not, Nat.not_lt] at hx hz ⊢
  rw [totalKey, totalKey] at hxy hyz
  cases hy : y.isNegative with
  | true =>
    rw [hy, if_pos rfl] at hxy
    split at hxy <;> omega
  | false =>
    rw [hy, if_neg Bool.false_ne_true] at hyz
    split at hyz <;> omega

end Binary64

namespace Value

/-- The value is a number of floating point that is no number. -/
def isNaN : Value → Bool
  | float x => x.isNaN
  | _ => false

/-! ### Equality -/

/-- The same answer, read from the other side. -/
theorem compare?_eq_some_swap_iff {a b : Value} {o : Ordering} :
    b.compare? a = some o.swap ↔ a.compare? b = some o := by
  rw [compare?_swap a b]
  cases a.compare? b with
  | none => simp
  | some o' => cases o <;> cases o' <;> simp

mutual

/-- **Equality does not depend on the side.** -/
theorem equals_comm (a b : Value) : a.equals b = b.equals a := by
  have hcompare : (a.compare? b == some .eq) = (b.compare? a == some .eq) := by
    rw [Bool.eq_iff_iff, beq_iff_eq, beq_iff_eq, ← compare?_eq_some_swap_iff]
    rfl
  cases a with
  | null => cases b <;> rfl
  | list as =>
    cases b with
    | list bs => exact equalsItems_comm as bs
    | _ => rfl
  | _ => cases b <;> exact hcompare

theorem equalsItems_comm (as bs : List Value) : equalsItems as bs = equalsItems bs as := by
  match as, bs with
  | [], [] => rfl
  | [], _ :: _ => rfl
  | _ :: _, [] => rfl
  | a :: as, b :: bs =>
    rw [equalsItems, equalsItems, equals_comm a b, equalsItems_comm as bs]

end

/-- Whether the two values are equal is not a matter of comparing them: both are absent, or both are
lists. -/
inductive Uncompared : Value → Value → Prop where
  | nulls : Uncompared null null
  | lists (as bs : List Value) : Uncompared (list as) (list bs)

theorem Uncompared.symm {a b : Value} (h : a.Uncompared b) : b.Uncompared a := by
  cases h with
  | nulls => exact .nulls
  | lists as bs => exact .lists bs as

theorem not_uncompared_of_compare? {a b : Value} {o : Ordering} (h : a.compare? b = some o) :
    ¬ a.Uncompared b := by
  rintro (_ | _) <;> cases h

/-- All other values are equal if they compare as equal. -/
theorem equals_eq_compare? {a b : Value} (h : ¬ a.Uncompared b) :
    a.equals b = (a.compare? b == some .eq) := by
  cases a with
  | null =>
    cases b with
    | null => exact absurd .nulls h
    | _ => rfl
  | list as =>
    cases b with
    | list bs => exact absurd (.lists as bs) h
    | _ => rfl
  | _ => rw [equals] <;> nofun

/-- What can be compared is equal if it compares as equal. -/
theorem equals_of_compare? {a b : Value} {o : Ordering} (h : a.compare? b = some o) :
    a.equals b = (o == .eq) := by
  rw [equals_eq_compare? (not_uncompared_of_compare? h), h]
  rfl

/-- **Comparing as equal is being equal**, for the values that are compared. -/
theorem compare?_eq_some_eq_iff {a b : Value} :
    a.compare? b = some .eq ↔ a.equals b = true ∧ ¬ a.Uncompared b := by
  constructor
  · intro h
    exact ⟨equals_of_compare? h, not_uncompared_of_compare? h⟩
  · rintro ⟨hequals, hcompared⟩
    rw [equals_eq_compare? hcompared] at hequals
    exact beq_iff_eq.mp hequals

/-! ### Sorting what can be compared -/

/-- **What compares as less sorts before.** -/
theorem sortOrder_of_compare?_lt {a b : Value} (h : a.compare? b = some .lt) :
    a.sortOrder b = .lt := by
  cases a with
  | null => cases b <;> cases h
  | list as => cases b <;> cases h
  | float x =>
    cases b with
    | float y =>
      obtain ⟨-, hkey⟩ := Binary64.compare?_eq_some_iff.mp h
      rw [Int.compare_eq_lt] at hkey
      refine Int.compare_eq_lt.mpr (Int.not_le.mp fun hle => ?_)
      exact Int.not_le.mpr hkey (Binary64.key_le_of_totalKey_le hle)
    | null => cases h
    | _ => simp only [sortOrder, h, Option.getD_some]
  | _ =>
    cases b with
    | null => cases h
    | _ => simp only [sortOrder, h, Option.getD_some]

/-- Values that sort in one way do not compare in the other one. -/
theorem compare?_ne_gt_of_isLE {a b : Value} (h : (a.sortOrder b).isLE) :
    a.compare? b ≠ some .gt := by
  intro hgt
  have hlt : b.compare? a = some .lt := compare?_eq_some_swap_iff.mpr hgt
  rw [sortOrder_swap b a, sortOrder_of_compare?_lt hlt] at h
  cases h

/-- The order of two values in conditions, where they have one. -/
def conditionOrder (a b : Value) : Ordering :=
  (a.compare? b).getD .eq

theorem conditionOrder_of_compare? {a b : Value} {o : Ordering} (h : a.compare? b = some o) :
    a.conditionOrder b = o := by
  rw [conditionOrder, h]
  rfl

end Value

/-! ### Values of one kind -/

namespace Kind

/-- The values of a kind that can be compared with each other. -/
structure Ordered (k : Kind) (v : Value) : Prop where
  admits : k.Admits v
  number : v.isNaN = false

variable {k : Kind} {a b c : Value}

theorem Admits.isNull_eq_false (ha : k.Admits a) : a.isNull = false := by
  cases ha <;> rfl

/-- **Values of one kind are comparable**, but for NaNs. -/
theorem Ordered.compare?_eq (ha : k.Ordered a) (hb : k.Ordered b) :
    a.compare? b = some (a.conditionOrder b) := by
  suffices h : ∃ o, a.compare? b = some o by
    obtain ⟨o, ho⟩ := h
    rw [Value.conditionOrder, ho]
    rfl
  obtain ⟨ha, hna⟩ := ha
  obtain ⟨hb, hnb⟩ := hb
  cases ha with
  | bool x | int x | text x | instant x =>
    cases hb
    exact ⟨_, rfl⟩
  | float x =>
    cases hb
    exact ⟨_, Binary64.compare?_eq_some_iff.mpr ⟨⟨hna, hnb⟩, rfl⟩⟩
  | enum x hx =>
    obtain ⟨⟩ | ⟨⟩ | ⟨⟩ | ⟨⟩ | ⟨⟩ | ⟨y, hy⟩ := hb
    exact ⟨_, if_pos (hx.trans hy.symm)⟩

/-- What is compared with a value of its kind is no NaN. -/
theorem Admits.ordered_of_compare? {o : Ordering} (ha : k.Admits a) (hb : k.Admits b)
    (h : a.compare? b = some o) : k.Ordered a ∧ k.Ordered b := by
  suffices hnumbers : a.isNaN = false ∧ b.isNaN = false from
    ⟨⟨ha, hnumbers.1⟩, ⟨hb, hnumbers.2⟩⟩
  cases ha with
  | float x =>
    cases hb
    exact (Binary64.compare?_eq_some_iff.mp h).1
  | _ =>
    cases hb
    exact ⟨rfl, rfl⟩

/-- **The comparison on the values of a kind.** -/
theorem Ordered.preorders (k : Kind) : Preorders k.Ordered Value.conditionOrder where
  swap {a b} ha hb := by
    have hswap := Value.compare?_swap a b
    rw [ha.compare?_eq hb, hb.compare?_eq ha] at hswap
    exact Option.some.inj hswap
  isLE_trans {a b c} ha hb hc hab hbc := by
    have hab' := ha.compare?_eq hb
    have hbc' := hb.compare?_eq hc
    have hac' := ha.compare?_eq hc
    obtain ⟨ha, -⟩ := ha
    obtain ⟨hb, -⟩ := hb
    obtain ⟨hc, -⟩ := hc
    cases ha with
    | bool x | int x | text x =>
      cases hb
      cases hc
      exact Std.TransOrd.isLE_trans hab hbc
    | instant x =>
      cases hb
      cases hc
      simp only [Value.conditionOrder, Value.compare?, Option.getD_some] at hab hbc ⊢
      exact Std.TransCmp.isLE_trans hab hbc
    | float x =>
      cases hb
      cases hc
      rw [← (Binary64.compare?_eq_some_iff.mp hab').2] at hab
      rw [← (Binary64.compare?_eq_some_iff.mp hbc').2] at hbc
      rw [← (Binary64.compare?_eq_some_iff.mp hac').2]
      exact Std.TransOrd.isLE_trans hab hbc
    | enum x hx =>
      obtain ⟨⟩ | ⟨⟩ | ⟨⟩ | ⟨⟩ | ⟨⟩ | ⟨y, hy⟩ := hb
      obtain ⟨⟩ | ⟨⟩ | ⟨⟩ | ⟨⟩ | ⟨⟩ | ⟨z, hz⟩ := hc
      simp only [Value.conditionOrder, Value.compare?, hx, hy, hz, if_true, Option.getD_some]
        at hab hbc ⊢
      exact Std.TransOrd.isLE_trans hab hbc

/-- **What sorts between comparable values is comparable.** -/
theorem Ordered.of_between (ha : k.Ordered a) (hb : k.Cell b) (hc : k.Ordered c)
    (hab : (a.sortOrder b).isLE) (hbc : (b.sortOrder c).isLE) : k.Ordered b := by
  obtain ⟨ha, hna⟩ := ha
  obtain ⟨hc, hnc⟩ := hc
  have hb : k.Admits b := by
    rcases hb with rfl | hb
    · exact absurd (Value.eq_null_of_isLE hab) ha.ne_null
    · exact hb
  refine ⟨hb, ?_⟩
  cases hb with
  | float y =>
    cases ha
    cases hc
    exact Binary64.isNaN_of_between hna hnc (Int.isLE_compare.mp hab) (Int.isLE_compare.mp hbc)
  | _ => rfl

end Kind

end RowQuery
