import RowQuery.Proofs.Binary64.Monotone
import RowQuery.Proofs.Value.SortOrder

/-!
# The sort order across kinds

Sorting has an answer for every pair of values. Backwards it is the reversed answer, and a value
ties with itself. Whether the answers can be chained is another matter: going round three values
must never lead up, and it does where values have no common measure.

## Where the order goes round

* A whole number is rounded to meet a number of floating point. Two whole numbers that round to one
  number of floating point both tie with it and not with each other.
* A whole number ties with every NaN, because they are not comparable and have one rank, and the
  whole number zero ties with both zeros of floating point.
* Variants of different enumerations tie, whatever their numbers.

Nothing else goes wrong, and lists go wrong only where such items meet in one place. `Agree` says of
two values that none of this happens between them.

## Why rounds

That three values are in order can be said in six ways, and a proof by cases on lists would need
several of them for the items. Going round them is one condition, the same from wherever it starts,
and for lists it follows from the same condition on the items, place by place.

## Main definitions

* `Value.Fit`: three values, of which each is at most the next one all the way round, tie.
* `Value.MeetsExactly`, `Value.Agree`: two values have a common measure.

## Main results

* `Value.sortOrder_self`: every value ties with itself.
* `Value.Agree.fit`: values that agree in pairs fit together.
* `Value.not_fit_of_rounds`, `not_fit_of_isNaN`, `not_fit_zeros`, `not_fit_of_definition_ne`: each
  of the exceptions is one.
* `Value.sortOrder_total_of_agree`: the laws of a total preorder, the last of them where values
  agree.
* `Value.sortOrder_not_total`: on all values the last law fails.
-/

namespace RowQuery

namespace Binary64

/-! ### The two orders of numbers -/

theorem key_le_of_totalKey_le {x y : Binary64} (h : x.totalKey ≤ y.totalKey) : x.key ≤ y.key := by
  rw [totalKey, totalKey] at h
  rw [key, key]
  cases hx : x.isNegative <;> cases hy : y.isNegative <;> rw [hx, hy] at h <;>
    simp only [Bool.false_eq_true, if_true, if_false] at h ⊢ <;> omega

/-- Only the zeros have one place among the numbers and two among the words. -/
theorem totalKey_eq_of_key_eq {x y : Binary64} (hkey : x.key = y.key)
    (hsign : x.isNegative = y.isNegative) : x.totalKey = y.totalKey := by
  rw [key, key, hsign] at hkey
  rw [totalKey, totalKey, hsign]
  cases hy : y.isNegative <;> rw [hy] at hkey <;>
    simp only [Bool.false_eq_true, if_true, if_false] at hkey ⊢ <;> omega

end Binary64

namespace Value

/-- Every value ties with itself. -/
theorem sortOrder_self (a : Value) : a.sortOrder a = .eq := by
  have h := sortOrder_swap a a
  cases ho : a.sortOrder a with
  | eq => rfl
  | lt | gt => rw [ho] at h; cases h

/-! ### Going round three values -/

/-- If each of three values is at most the next one, all the way round, they tie. -/
def Fit (a b c : Value) : Prop :=
  (a.sortOrder b).isLE → (b.sortOrder c).isLE → (c.sortOrder a).isLE →
    a.sortOrder b = .eq ∧ b.sortOrder c = .eq ∧ c.sortOrder a = .eq

theorem Fit.rotate {a b c : Value} (h : Fit a b c) : Fit b c a := by
  intro hbc hca hab
  obtain ⟨hab, hbc, hca⟩ := h hab hbc hca
  exact ⟨hbc, hca, hab⟩

/-- The answers for values that fit together can be chained. -/
theorem Fit.isLE_trans {a b c : Value} (h : Fit a b c) (hab : (a.sortOrder b).isLE)
    (hbc : (b.sortOrder c).isLE) : (a.sortOrder c).isLE := by
  cases hac : a.sortOrder c with
  | lt => rfl
  | eq => rfl
  | gt =>
    have hca : c.sortOrder a = .lt := by rw [sortOrder_swap a c, hac]; rfl
    obtain ⟨-, -, htie⟩ := h hab hbc (by rw [hca]; rfl)
    rw [hca] at htie
    cases htie

/-! ### Agreement -/

/-- A whole number and a number of floating point are measured as what they are: the second is a
number, and if they tie then they are equal. -/
structure MeetsExactly (n : Int64) (x : Binary64) : Prop where
  number : x.isNaN = false
  tie : (int n).compare? (float x) = some .eq → x.Denotes n.toInt

mutual

/-- Two values have a common measure: numbers meet exactly, variants are of one enumeration, and
lists agree place by place as far as both go. -/
def Agree : Value → Value → Prop
  | int n, float x => MeetsExactly n x
  | float x, int n => MeetsExactly n x
  | enum a, enum b => a.definition = b.definition
  | list as, list bs => AgreeItems as bs
  | _, _ => True

/-- The items of two lists agree place by place. -/
def AgreeItems : List Value → List Value → Prop
  | a :: as, b :: bs => Agree a b ∧ AgreeItems as bs
  | _, _ => True

end

/-! ### Numbers -/

theorem sortOrder_int_float {n : Int64} {x : Binary64} (h : MeetsExactly n x) :
    (int n).sortOrder (float x) = Ord.compare (Binary64.ofInt n.toInt).key x.key := by
  simp [sortOrder, compare?_int_float, Binary64.compare?, Binary64.isNaN_ofInt, h.number]

theorem sortOrder_float_int {n : Int64} {x : Binary64} (h : MeetsExactly n x) :
    (float x).sortOrder (int n) = Ord.compare x.key (Binary64.ofInt n.toInt).key := by
  simp [sortOrder, compare?_float_int, Binary64.compare?, Binary64.isNaN_ofInt, h.number]

theorem MeetsExactly.denotes {n : Int64} {x : Binary64} (h : MeetsExactly n x)
    (hkey : (Binary64.ofInt n.toInt).key = x.key) : x.Denotes n.toInt := by
  refine h.tie ?_
  simp [compare?_int_float, Binary64.compare?, Binary64.isNaN_ofInt, h.number, hkey]

/-- Two whole numbers and a number of floating point: rounding keeps the order, and if both round to
the third one then it is both of them. -/
theorem fit_int_int_float {m n : Int64} {x : Binary64} (hm : MeetsExactly m x)
    (hn : MeetsExactly n x) : Fit (int m) (int n) (float x) := by
  intro hmn hnx hxm
  rw [sortOrder_int_float hn] at hnx ⊢
  rw [sortOrder_float_int hm] at hxm ⊢
  have hle : m.toInt ≤ n.toInt := Int.isLE_compare.mp hmn
  have hmono := Binary64.key_ofInt_mono hle
  rw [Int.isLE_compare] at hnx hxm
  have hnkey : (Binary64.ofInt n.toInt).key = x.key := by omega
  have hmkey : (Binary64.ofInt m.toInt).key = x.key := by omega
  have hsame : m.toInt = n.toInt := (hm.denotes hmkey).unique (hn.denotes hnkey)
  exact ⟨Int.compare_eq_eq.mpr hsame, Int.compare_eq_eq.mpr hnkey,
    Int.compare_eq_eq.mpr hmkey.symm⟩

/-- A whole number and two numbers of floating point: these have one sign if they tie with it. -/
theorem fit_int_float_float {n : Int64} {x y : Binary64} (hx : MeetsExactly n x)
    (hy : MeetsExactly n y) : Fit (int n) (float x) (float y) := by
  intro hnx hxy hyn
  rw [sortOrder_int_float hx] at hnx ⊢
  rw [sortOrder_float_int hy] at hyn ⊢
  have htotal : x.totalKey ≤ y.totalKey := Int.isLE_compare.mp hxy
  have hle := Binary64.key_le_of_totalKey_le htotal
  rw [Int.isLE_compare] at hnx hyn
  have hxkey : (Binary64.ofInt n.toInt).key = x.key := by omega
  have hykey : (Binary64.ofInt n.toInt).key = y.key := by omega
  have hsign : x.isNegative = y.isNegative :=
    (hx.denotes hxkey).sign.trans (hy.denotes hykey).sign.symm
  have hsame := Binary64.totalKey_eq_of_key_eq (hxkey.symm.trans hykey) hsign
  exact ⟨Int.compare_eq_eq.mpr hxkey, Int.compare_eq_eq.mpr hsame,
    Int.compare_eq_eq.mpr hykey.symm⟩

/-! ### Values -/

/-- Values of different rank are ordered by rank. -/
theorem sortOrder_of_rank_ne {a b : Value} (h : a.rank ≠ b.rank) :
    a.sortOrder b = Ord.compare a.rank b.rank := by
  cases a <;> cases b <;> first | rfl | exact absurd rfl h

theorem rank_le_of_isLE {a b : Value} (h : (a.sortOrder b).isLE) : a.rank ≤ b.rank := by
  by_cases hr : a.rank = b.rank
  · exact Nat.le_of_eq hr
  · rw [sortOrder_of_rank_ne hr] at h
    exact Nat.isLE_compare.mp h

theorem fit_of_cell {k : Kind} {a b c : Value} (ha : k.Cell a) (hb : k.Cell b) (hc : k.Cell c) :
    Fit a b c :=
  (Kind.Cell.preorders k).round_eq ha hb hc

mutual

/-- **Values that agree fit together.** Going round stays within one rank. There all values are of
one kind, or they are numbers, or they are lists. -/
theorem Agree.fit {a b c : Value} (hab : a.Agree b) (hbc : b.Agree c) (hca : c.Agree a) :
    Fit a b c := by
  intro h₁ h₂ h₃
  have hle₁ := rank_le_of_isLE h₁
  have hle₂ := rank_le_of_isLE h₂
  have hle₃ := rank_le_of_isLE h₃
  have hr₁ : a.rank = b.rank := by omega
  have hr₂ : b.rank = c.rank := by omega
  cases a <;> cases b <;> (try (simp [rank] at hr₁; done)) <;>
    cases c <;> (try (simp [rank] at hr₂; done))
  case null.null.null => exact ⟨rfl, rfl, rfl⟩
  case bool.bool.bool x y z =>
    exact fit_of_cell (.inr (.bool x)) (.inr (.bool y)) (.inr (.bool z)) h₁ h₂ h₃
  case text.text.text x y z =>
    exact fit_of_cell (.inr (.text x)) (.inr (.text y)) (.inr (.text z)) h₁ h₂ h₃
  case instant.instant.instant x y z =>
    exact fit_of_cell (.inr (.instant x)) (.inr (.instant y)) (.inr (.instant z)) h₁ h₂ h₃
  case enum.enum.enum x y z =>
    exact fit_of_cell (.inr (.enum x rfl)) (.inr (.enum y hab.symm)) (.inr (.enum z hca)) h₁ h₂ h₃
  case int.int.int x y z =>
    exact fit_of_cell (.inr (.int x)) (.inr (.int y)) (.inr (.int z)) h₁ h₂ h₃
  case float.float.float x y z =>
    exact fit_of_cell (.inr (.float x)) (.inr (.float y)) (.inr (.float z)) h₁ h₂ h₃
  case int.int.float => exact fit_int_int_float hca hbc h₁ h₂ h₃
  case int.float.int => exact (fit_int_int_float hbc hab).rotate h₁ h₂ h₃
  case float.int.int => exact (fit_int_int_float hab hca).rotate.rotate h₁ h₂ h₃
  case int.float.float => exact fit_int_float_float hab hca h₁ h₂ h₃
  case float.float.int => exact (fit_int_float_float hca hbc).rotate h₁ h₂ h₃
  case float.int.float => exact (fit_int_float_float hbc hab).rotate.rotate h₁ h₂ h₃
  case list.list.list as bs cs => exact AgreeItems.fit hab hbc hca h₁ h₂ h₃

/-- The heads go round, so they tie, and then the tails go round. -/
theorem AgreeItems.fit {as bs cs : List Value} (hab : AgreeItems as bs) (hbc : AgreeItems bs cs)
    (hca : AgreeItems cs as) (h₁ : (sortOrderItems as bs).isLE)
    (h₂ : (sortOrderItems bs cs).isLE) (h₃ : (sortOrderItems cs as).isLE) :
    sortOrderItems as bs = .eq ∧ sortOrderItems bs cs = .eq ∧ sortOrderItems cs as = .eq := by
  match as, bs, cs with
  | [], [], [] => exact ⟨rfl, rfl, rfl⟩
  | [], _, _ :: _ => cases h₃
  | _, _ :: _, [] => cases h₂
  | _ :: _, [], _ => cases h₁
  | a :: as, b :: bs, c :: cs =>
    obtain ⟨ha, has⟩ := hab
    obtain ⟨hb, hbs⟩ := hbc
    obtain ⟨hc, hcs⟩ := hca
    rw [sortOrderItems] at h₁ h₂ h₃
    obtain ⟨hab, hbc, hca⟩ := Agree.fit ha hb hc (Ordering.isLE_left_of_isLE_then h₁)
      (Ordering.isLE_left_of_isLE_then h₂) (Ordering.isLE_left_of_isLE_then h₃)
    rw [hab] at h₁
    rw [hbc] at h₂
    rw [hca] at h₃
    rw [sortOrderItems, sortOrderItems, sortOrderItems, hab, hbc, hca]
    exact AgreeItems.fit has hbs hcs h₁ h₂ h₃

end

/-! ### Where the order goes round

Of each kind of exception, with what takes part in it left open. -/

theorem not_fit_of_ties {a b c : Value} (hab : a.sortOrder b = .eq) (hbc : b.sortOrder c = .eq)
    (hca : c.sortOrder a = .lt) : ¬ Fit a b c := by
  intro h
  obtain ⟨-, -, htie⟩ := h (by rw [hab]; rfl) (by rw [hbc]; rfl) (by rw [hca]; rfl)
  rw [hca] at htie
  cases htie

/-- Whole numbers around a number that both of them round to. -/
theorem not_fit_of_rounds {m n : Int64} {x : Binary64}
    (hm : (Binary64.ofInt m.toInt).compare? x = some .eq)
    (hn : (Binary64.ofInt n.toInt).compare? x = some .eq) (hmn : m.toInt < n.toInt) :
    ¬ Fit (int n) (float x) (int m) := by
  have hxm : x.compare? (Binary64.ofInt m.toInt) = some .eq := by
    rw [Binary64.compare?_swap, hm]
    rfl
  refine not_fit_of_ties ?_ ?_ (Int.compare_eq_lt.mpr hmn)
  · simp only [sortOrder, compare?_int_float, hn, Option.getD_some]
  · simp only [sortOrder, compare?_float_int, hxm, Option.getD_some]

/-- Whole numbers around a NaN. -/
theorem not_fit_of_isNaN {m n : Int64} {x : Binary64} (hx : x.isNaN = true)
    (hmn : m.toInt < n.toInt) : ¬ Fit (int n) (float x) (int m) := by
  refine not_fit_of_ties ?_ ?_ (Int.compare_eq_lt.mpr hmn)
  · simp [sortOrder, compare?_int_float, Binary64.compare?, hx, rank]
  · simp [sortOrder, compare?_float_int, Binary64.compare?, hx, rank]

/-- The zeros of floating point around the whole number zero. -/
theorem not_fit_zeros : ¬ Fit (float ⟨0⟩) (int 0) (float ⟨0x8000000000000000⟩) :=
  not_fit_of_ties (by decide) (by decide) (by decide)

/-- Variants of one enumeration around a variant of another one. -/
theorem not_fit_of_definition_ne {d e : EnumDef} (h : d ≠ e) (k : Int64) {m n : Int64}
    (hmn : m.toInt < n.toInt) : ¬ Fit (enum ⟨d, n⟩) (enum ⟨e, k⟩) (enum ⟨d, m⟩) := by
  refine not_fit_of_ties ?_ ?_ ?_
  · simp [sortOrder, compare?, h, rank]
  · simp [sortOrder, compare?, h.symm, rank]
  · simp only [sortOrder, compare?, if_true, Option.getD_some]
    exact Int.compare_eq_lt.mpr hmn

/-! ### The order of all values -/

/-- **The sort order as far as it is one.** Every value ties with itself, and backwards the answer
is the reversed one, for values of all kinds. The answers can be chained where the values agree. -/
theorem sortOrder_total_of_agree (a b c : Value) :
    a.sortOrder a = .eq ∧ b.sortOrder a = (a.sortOrder b).swap ∧
      (a.Agree b → b.Agree c → c.Agree a →
        a.sortOrder b ≠ .gt → b.sortOrder c ≠ .gt → a.sortOrder c ≠ .gt) := by
  refine ⟨sortOrder_self a, sortOrder_swap a b, fun hab hbc hca h₁ h₂ => ?_⟩
  have hle : (a.sortOrder c).isLE := (hab.fit hbc hca).isLE_trans
    (Ordering.isLE_iff_ne_gt.mpr h₁) (Ordering.isLE_iff_ne_gt.mpr h₂)
  exact Ordering.isLE_iff_ne_gt.mp hle

/-- Lists in which a whole number ties with a number of floating point, and another one does not. -/
theorem sortOrder_total_of_agree_lists :
    let a : Value := .list [.int 3, .null]
    let b : Value := .list [.float ⟨0x4008000000000000⟩, .int 7]
    let c : Value := .list [.int 3, .float ⟨0x401E000000000000⟩]
    (a.Agree b ∧ b.Agree c ∧ c.Agree a) ∧ (a.sortOrder b ≠ .gt ∧ b.sortOrder c ≠ .gt) ∧
      a.sortOrder c ≠ .gt := by
  intro a b c
  have hthree : MeetsExactly 3 ⟨0x4008000000000000⟩ :=
    ⟨by decide, fun _ => ⟨by decide, by decide, by decide⟩⟩
  have hseven : MeetsExactly 7 ⟨0x401E000000000000⟩ :=
    ⟨by decide, fun h => absurd h (by decide)⟩
  have hab : a.Agree b := ⟨hthree, trivial, trivial⟩
  have hbc : b.Agree c := ⟨hthree, hseven, trivial⟩
  have hca : c.Agree a := ⟨trivial, trivial, trivial⟩
  have h₁ : a.sortOrder b ≠ .gt := by decide
  have h₂ : b.sortOrder c ≠ .gt := by decide
  exact ⟨⟨hab, hbc, hca⟩, ⟨h₁, h₂⟩, (sortOrder_total_of_agree a b c).2.2 hab hbc hca h₁ h₂⟩

/-- **On all values the answers cannot be chained.** Of two neighbouring whole numbers the greater
one rounds to the lesser one. -/
theorem sortOrder_not_total :
    ¬ ∀ a b c : Value, a.sortOrder a = .eq ∧ b.sortOrder a = (a.sortOrder b).swap ∧
      (a.sortOrder b ≠ .gt → b.sortOrder c ≠ .gt → a.sortOrder c ≠ .gt) := by
  intro h
  have hchain := (h (.int 9007199254740993) (.float ⟨0x4340000000000000⟩)
    (.int 9007199254740992)).2.2
  have h₁ : (int 9007199254740993).sortOrder (float ⟨0x4340000000000000⟩) ≠ .gt := by
    decide +kernel
  have h₂ : (float ⟨0x4340000000000000⟩).sortOrder (int 9007199254740992) ≠ .gt := by
    decide +kernel
  exact hchain h₁ h₂ (by decide +kernel)

end Value

end RowQuery
