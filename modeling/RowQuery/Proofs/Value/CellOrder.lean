import RowQuery.Proofs.Value.SortOrder

/-!
# The order of cells

What the sort order says of two cells of one property, kind by kind and without the detour over
comparable values and ranks: an absent cell is lowest, truth values go from false to true, whole
numbers by size, numbers of floating point by their total order, texts by their code points one
after the other, points in time by seconds and then nanoseconds, and variants by number. The cells
of a sequence are compared item by item.

## Main definitions

* `Text.codePoints`, `Text.compareCodePoints`: the code points of a text, and two texts by them.
* `Value.cellOrder`: two cells of one property.

## Main results

* `Text.compare_eq_codePoints`: texts are compared by code points.
* `DataType.Holds.sortOrder_eq`: the sort order of two values of one type is the order of cells.
-/

namespace RowQuery

/-! ### Texts -/

namespace Text

/-- The code points of a text. -/
def codePoints (s : String) : List Nat :=
  s.toList.map Char.toNat

/-- The first code points that differ decide; a text comes before its extensions. -/
def compareCodePoints (a b : String) : Ordering :=
  List.compareLex Ord.compare (codePoints a) (codePoints b)

theorem compare_chars_eq (as bs : List Char) :
    compareOfLessAndEq as bs
      = List.compareLex Ord.compare (as.map Char.toNat) (bs.map Char.toNat) := by
  induction as generalizing bs with
  | nil => cases bs <;> simp [compareOfLessAndEq, List.compareLex]
  | cons a as ih =>
    cases bs with
    | nil => simp [compareOfLessAndEq, List.compareLex]
    | cons b bs =>
      have hlt : a < b ↔ a.toNat < b.toNat := Iff.rfl
      have heq : a = b ↔ a.toNat = b.toNat := Char.toNat_inj.symm
      rw [List.map_cons, List.map_cons, List.compareLex_cons_cons, ← ih, compareOfLessAndEq,
        compareOfLessAndEq]
      simp only [List.cons_lt_cons_iff, List.cons.injEq, hlt, heq]
      rcases Nat.lt_trichotomy a.toNat b.toNat with h | h | h
      · simp [Nat.compare_eq_lt.mpr h, h]
      · simp [h]
      · have hnlt : ¬ a.toNat < b.toNat := by omega
        have hne : ¬ a.toNat = b.toNat := by omega
        simp [Nat.compare_eq_gt.mpr h, hnlt, hne]

theorem compare_eq_codePoints (a b : String) :
    Ord.compare a b = compareCodePoints a b := by
  rw [compareCodePoints, codePoints, codePoints, ← compare_chars_eq]
  show compareOfLessAndEq a b = _
  simp only [compareOfLessAndEq, String.lt_iff, String.toList_inj]

end Text

/-! ### Cells -/

namespace Value

mutual

/-- Two cells of one property, the absent one lowest. -/
def cellOrder : Value → Value → Ordering
  | null, null => .eq
  | null, _ => .lt
  | _, null => .gt
  | bool a, bool b => Ord.compare a.toNat b.toNat
  | int a, int b => Ord.compare a.toInt b.toInt
  | float a, float b => Ord.compare a.totalKey b.totalKey
  | text a, text b => Text.compareCodePoints a b
  | instant a, instant b => (Ord.compare a.seconds b.seconds).then (Ord.compare a.nanos b.nanos)
  | enum a, enum b => Ord.compare a.number.toInt b.number.toInt
  | list as, list bs => cellOrderItems as bs
  | _, _ => .eq

/-- The first difference decides; a list comes before its extensions. -/
def cellOrderItems : List Value → List Value → Ordering
  | [], [] => .eq
  | [], _ :: _ => .lt
  | _ :: _, [] => .gt
  | a :: as, b :: bs => (cellOrder a b).then (cellOrderItems as bs)

end

end Value

/-- Two values of one kind. -/
theorem Kind.Admits.sortOrder_eq {k : Kind} {a b : Value} (ha : k.Admits a) (hb : k.Admits b) :
    a.sortOrder b = a.cellOrder b := by
  cases ha with
  | bool x =>
    obtain ⟨y⟩ := hb
    cases x <;> cases y <;> rfl
  | int x | float x =>
    cases hb
    rfl
  | text x =>
    cases hb with
    | text y =>
      simp only [Value.sortOrder, Value.compare?, Option.getD_some, Value.cellOrder]
      exact Text.compare_eq_codePoints x y
  | instant x =>
    cases hb
    rfl
  | enum x hx =>
    obtain ⟨⟩ | ⟨⟩ | ⟨⟩ | ⟨⟩ | ⟨⟩ | ⟨y, hy⟩ := hb
    simp [Value.sortOrder, Value.compare?, Value.cellOrder, hx, hy]

theorem Kind.Cell.sortOrder_eq {k : Kind} {a b : Value} (ha : k.Cell a) (hb : k.Cell b) :
    a.sortOrder b = a.cellOrder b := by
  rcases ha with rfl | ha
  · cases b <;> rfl
  rcases hb with rfl | hb
  · cases a <;> rfl
  exact ha.sortOrder_eq hb

theorem Kind.Cell.sortOrderItems_eq {k : Kind} {as bs : List Value} (ha : ∀ a ∈ as, k.Cell a)
    (hb : ∀ b ∈ bs, k.Cell b) : Value.sortOrderItems as bs = Value.cellOrderItems as bs := by
  induction as generalizing bs with
  | nil => cases bs <;> rfl
  | cons a as ih =>
    cases bs with
    | nil => rfl
    | cons b bs =>
      obtain ⟨ha, has⟩ := List.forall_mem_cons.mp ha
      obtain ⟨hb, hbs⟩ := List.forall_mem_cons.mp hb
      rw [Value.sortOrderItems, Value.cellOrderItems, Kind.Cell.sortOrder_eq ha hb, ih has hbs]

/-- **Cells of one type.** -/
theorem DataType.Holds.sortOrder_eq {t : DataType} {a b : Value} (ha : t.Holds a)
    (hb : t.Holds b) : a.sortOrder b = a.cellOrder b := by
  cases ht : t.isSequence with
  | false => exact (ha.cell ht).sortOrder_eq (hb.cell ht)
  | true =>
    by_cases hna : a = .null
    · rw [hna]
      cases b <;> rfl
    by_cases hnb : b = .null
    · rw [hnb]
      cases a <;> rfl
    obtain ⟨as, rfl, has⟩ := ha.items ht hna
    obtain ⟨bs, rfl, hbs⟩ := hb.items ht hnb
    exact Kind.Cell.sortOrderItems_eq has hbs

end RowQuery
