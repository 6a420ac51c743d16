import RowQuery.Proofs.Preorder
import RowQuery.Schema
import RowQuery.Value.Order

/-!
# The sort order on values of one type

Sorting has an answer for every pair of values. Whole numbers and numbers of floating point are
compared as numbers there, so among values of all kinds the answers need not fit together. Among the
values that one declared type admits they do: absent values come first, and the others are compared
by one order of their kind.

## Main definitions

* `Kind.Admits`, `Kind.Cell`, `DataType.Holds`: the values of a kind, the same or absent, and the
  values of a declared type.
* `Schema.Typed`: every property reads a value of its type from the row.

## Main results

* `Value.sortOrder_swap`: comparing backwards, for all values.
* `Kind.Cell.preorders`, `DataType.Holds.preorders`: the sort order is a total preorder on the
  values of one kind and of one type.
-/

namespace RowQuery

/-! ### Comparing backwards -/

namespace Value

/-- What the order is where neither absence nor floating point nor lists come in. -/
theorem getD_compare?_swap (a b : Value) :
    (b.compare? a).getD (Ord.compare b.rank a.rank)
      = ((a.compare? b).getD (Ord.compare a.rank b.rank)).swap := by
  rw [compare?_swap a b]
  cases a.compare? b with
  | none => exact (Std.OrientedCmp.eq_swap : Ord.compare b.rank a.rank = _)
  | some o => rfl

mutual

theorem sortOrder_swap (a b : Value) : b.sortOrder a = (a.sortOrder b).swap := by
  cases a with
  | null => cases b <;> rfl
  | float x =>
    cases b with
    | null => rfl
    | float y => exact Binary64.totalCompare_swap x y
    | _ =>
      simp only [sortOrder]
      exact getD_compare?_swap _ _
  | list as =>
    cases b with
    | null => rfl
    | list bs => exact sortOrderItems_swap as bs
    | _ =>
      simp only [sortOrder]
      exact getD_compare?_swap _ _
  | _ =>
    cases b with
    | null => rfl
    | _ =>
      simp only [sortOrder]
      exact getD_compare?_swap _ _

theorem sortOrderItems_swap (as bs : List Value) :
    sortOrderItems bs as = (sortOrderItems as bs).swap := by
  match as, bs with
  | [], [] => rfl
  | [], _ :: _ => rfl
  | _ :: _, [] => rfl
  | a :: as, b :: bs =>
    rw [sortOrderItems, sortOrderItems, sortOrder_swap a b, sortOrderItems_swap as bs,
      Ordering.swap_then]

end

theorem null_isLE (v : Value) : (null.sortOrder v).isLE := by
  cases v <;> rfl

theorem eq_null_of_isLE {v : Value} (h : (v.sortOrder null).isLE) : v = null := by
  cases v with
  | null => rfl
  | _ => cases h

/-- Lists are compared item by item, and a list comes before its extensions. -/
theorem sortOrderItems_eq (as bs : List Value) :
    sortOrderItems as bs = List.compareLex sortOrder as bs := by
  induction as generalizing bs with
  | nil => cases bs <;> rfl
  | cons a as ih =>
    cases bs with
    | nil => rfl
    | cons b bs => rw [sortOrderItems, ih, List.compareLex_cons_cons]

end Value

/-! ### The orders of the kinds -/

instance : Std.TransCmp Binary64.totalCompare where
  eq_swap {a b} := Binary64.totalCompare_swap b a
  isLE_trans {_ _ _} hab hbc := by
    rw [Ordering.isLE_iff_ne_gt] at hab hbc ⊢
    exact Binary64.totalCompare_trans hab hbc

instance : Std.TransCmp Instant.compare :=
  inferInstanceAs (Std.TransCmp (compareLex (compareOn Instant.seconds) (compareOn Instant.nanos)))

namespace Kind

/-- The values of a kind. -/
inductive Admits : Kind → Value → Prop where
  | bool (b : Bool) : Admits .bool (.bool b)
  | int (n : Int64) : Admits .int (.int n)
  | float (x : Binary64) : Admits .float (.float x)
  | text (s : String) : Admits .text (.text s)
  | instant (t : Instant) : Admits .instant (.instant t)
  | enum {d : EnumDef} (e : EnumValue) (h : e.definition = d) : Admits (.enum d) (.enum e)

/-- The values of a kind, and the absent value. -/
def Cell (k : Kind) (v : Value) : Prop :=
  v = .null ∨ k.Admits v

/-- Each kind has one order. -/
theorem Admits.isLE_trans {k : Kind} {a b c : Value} (ha : k.Admits a) (hb : k.Admits b)
    (hc : k.Admits c) (hab : (a.sortOrder b).isLE) (hbc : (b.sortOrder c).isLE) :
    (a.sortOrder c).isLE := by
  cases ha with
  | bool x | int x | text x =>
    cases hb
    cases hc
    simp only [Value.sortOrder, Value.compare?, Option.getD_some] at hab hbc ⊢
    exact Std.TransOrd.isLE_trans hab hbc
  | float x | instant x =>
    cases hb
    cases hc
    simp only [Value.sortOrder, Value.compare?, Option.getD_some] at hab hbc ⊢
    exact Std.TransCmp.isLE_trans hab hbc
  | enum x hx =>
    obtain ⟨⟩ | ⟨⟩ | ⟨⟩ | ⟨⟩ | ⟨⟩ | ⟨y, hy⟩ := hb
    obtain ⟨⟩ | ⟨⟩ | ⟨⟩ | ⟨⟩ | ⟨⟩ | ⟨z, hz⟩ := hc
    simp only [Value.sortOrder, Value.compare?, hx, hy, hz, if_true, Option.getD_some] at hab hbc ⊢
    exact Std.TransOrd.isLE_trans hab hbc

theorem Admits.ne_null {k : Kind} {v : Value} (h : k.Admits v) : v ≠ .null := by
  rintro rfl
  cases h

/-- **The sort order on the values of a kind.** Absent values are lowest, so of three values in
order only the last ones can be present. -/
theorem Cell.preorders (k : Kind) : Preorders k.Cell Value.sortOrder where
  swap {a b} _ _ := Value.sortOrder_swap a b
  isLE_trans {a b c} ha hb hc hab hbc := by
    rcases ha with rfl | ha
    · exact Value.null_isLE c
    rcases hb with rfl | hb
    · exact absurd (Value.eq_null_of_isLE hab) ha.ne_null
    rcases hc with rfl | hc
    · exact absurd (Value.eq_null_of_isLE hbc) hb.ne_null
    exact ha.isLE_trans hb hc hab hbc

end Kind

/-! ### Values of a declared type -/

namespace DataType

/-- The values of a declared type. Where a type knows no absence, an absent value does no harm to
the order. -/
inductive Holds (t : DataType) : Value → Prop where
  | absent : Holds t .null
  | scalar {v : Value} (ht : t.isSequence = false) (h : t.kind.Admits v) : Holds t v
  | sequence {items : List Value} (ht : t.isSequence = true) (h : ∀ v ∈ items, t.kind.Cell v) :
    Holds t (.list items)

theorem Holds.cell {t : DataType} {v : Value} (h : t.Holds v) (ht : t.isSequence = false) :
    t.kind.Cell v := by
  cases h with
  | absent => exact .inl rfl
  | scalar _ h => exact .inr h
  | sequence ht' _ => rw [ht] at ht'; cases ht'

theorem Holds.items {t : DataType} {v : Value} (h : t.Holds v) (ht : t.isSequence = true)
    (hn : v ≠ .null) : ∃ items, v = .list items ∧ ∀ i ∈ items, t.kind.Cell i := by
  cases h with
  | absent => exact absurd rfl hn
  | scalar ht' _ => rw [ht] at ht'; cases ht'
  | sequence _ h => exact ⟨_, rfl, h⟩

/-- **The sort order on the values of a type.** -/
theorem Holds.preorders (t : DataType) : Preorders t.Holds Value.sortOrder where
  swap {a b} _ _ := Value.sortOrder_swap a b
  isLE_trans {a b c} ha hb hc hab hbc := by
    cases ht : t.isSequence with
    | false =>
      exact (Kind.Cell.preorders t.kind).isLE_trans (ha.cell ht) (hb.cell ht) (hc.cell ht) hab hbc
    | true =>
      by_cases hna : a = .null
      · rw [hna]
        exact Value.null_isLE c
      have hnb : b ≠ .null := fun h => hna (Value.eq_null_of_isLE (h ▸ hab))
      have hnc : c ≠ .null := fun h => hnb (Value.eq_null_of_isLE (h ▸ hbc))
      obtain ⟨as, rfl, has⟩ := ha.items ht hna
      obtain ⟨bs, rfl, hbs⟩ := hb.items ht hnb
      obtain ⟨cs, rfl, hcs⟩ := hc.items ht hnc
      simp only [Value.sortOrder, Value.sortOrderItems_eq] at hab hbc ⊢
      exact (Kind.Cell.preorders t.kind).list.isLE_trans has hbs hcs hab hbc

end DataType

/-- Every property reads a value of its type from the row. -/
def Schema.Typed {ρ : Type} (s : Schema ρ) (row : ρ) : Prop :=
  ∀ p ∈ s.properties, p.type.Holds (p.get row)

end RowQuery
