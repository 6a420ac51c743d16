import RowQuery.Binary64.Rounding
import Mathlib.Data.Nat.Log
import Mathlib.Tactic.Ring

/-!
# Rounding keeps the order

A whole number and a greater one round to numbers of floating point in the same order, not always
to different ones. Within one power of two the grid of the results is fixed and rounding a quotient
is monotone; across powers of two the results are kept apart by the power itself, because a
significand never leaves the range from the leading bit to twice that.

## Main definitions

* `Binary64.wholeMagnitude`: the magnitude that a whole number rounds to.
* `Binary64.Denotes`: a number of floating point is a whole number exactly.

## Main results

* `roundHalfEven_mono`, `Binary64.wholeMagnitude_mono`, `Binary64.key_ofInt_mono`: the order is
  kept.
* `Binary64.isNaN_ofInt`: what comes of rounding is comparable.
* `Binary64.Denotes.unique`: a number of floating point is one whole number at most.
-/

namespace RowQuery

/-! ### Quotients -/

theorem le_roundHalfEven {num den k : Nat} (hden : 0 < den) (h : k * den ≤ num) :
    k ≤ roundHalfEven num den := by
  have hq : k ≤ num / den := (Nat.le_div_iff_mul_le hden).mpr h
  simp only [roundHalfEven]
  split <;> omega

theorem roundHalfEven_le {num den k : Nat} (hden : 0 < den) (h : num < k * den) :
    roundHalfEven num den ≤ k := by
  have hq : num / den < k := (Nat.div_lt_iff_lt_mul hden).mpr h
  simp only [roundHalfEven]
  split <;> omega

/-- Both results are within half a unit of their quotients, so they can only be in the wrong order
if the quotients are one and the same. -/
theorem roundHalfEven_mono {a b den : Nat} (hden : 0 < den) (h : a ≤ b) :
    roundHalfEven a den ≤ roundHalfEven b den := by
  by_contra hlt
  have hstep : (roundHalfEven b den + 1) * den ≤ roundHalfEven a den * den :=
    Nat.mul_le_mul_right den (by omega)
  have ha : 2 * (roundHalfEven a den * den) ≤ 2 * a + den := (roundHalfEven_near hden).1
  have hb : 2 * b ≤ 2 * (roundHalfEven b den * den) + den := (roundHalfEven_near hden).2
  rw [Nat.succ_mul] at hstep
  have hab : a = b := by omega
  rw [hab] at hlt
  exact hlt (Nat.le_refl _)

namespace Binary64

/-! ### Whole numbers -/

/-- The magnitude that a whole number rounds to. -/
def wholeMagnitude (n : Nat) : Nat :=
  if n = 0 then 0
  else
    let (m, e) := nearest 53 (-1074) n 1
    min ((e + 1074).toNat * leadingBit + m) infinityMagnitude

theorem wholeMagnitude_le (n : Nat) : wholeMagnitude n ≤ infinityMagnitude := by
  rw [wholeMagnitude]
  split
  · exact Nat.zero_le _
  · exact Nat.min_le_right _ _

/-- The significand of a whole number that is at least `2 ^ l`, in units of the last place. -/
def wholeSignificand (n l : Nat) : Nat :=
  roundHalfEven (n <<< (52 - l)) (1 <<< (l - 52))

/-- The exponent is that of the greatest power of two below the number. -/
theorem nearest_whole {n : Nat} (h : n ≠ 0) :
    nearest 53 (-1074) n 1 = (wholeSignificand n n.log2, (n.log2 : Int) - 52) := by
  have hpow : 1 <<< n.log2 ≤ n := by
    rw [Nat.one_shiftLeft]
    exact Nat.log2_self_le h
  have hexp : binaryExponent n 1 = n.log2 := by
    have hlog : Nat.log2 1 = 0 := rfl
    simp only [binaryExponent, hlog]
    rw [if_neg]
    · omega
    · have h0 : (-((n.log2 : Int) - (0 : Nat))).toNat = 0 := by omega
      have h1 : ((n.log2 : Int) - (0 : Nat)).toNat = n.log2 := by omega
      rw [h0, h1, Nat.shiftLeft_zero]
      exact Nat.not_lt.mpr hpow
  have hmax : max ((n.log2 : Int) - ((53 - 1 : Nat) : Int)) (-1074) = (n.log2 : Int) - 52 := by
    omega
  have hneg : (-((n.log2 : Int) - 52)).toNat = 52 - n.log2 := by omega
  have hpos : ((n.log2 : Int) - 52).toNat = n.log2 - 52 := by omega
  simp only [nearest, hexp, hmax, hneg, hpos, wholeSignificand]

theorem wholeMagnitude_of_ne_zero {n : Nat} (h : n ≠ 0) :
    wholeMagnitude n
      = min ((n.log2 + 1022) * leadingBit + wholeSignificand n n.log2) infinityMagnitude := by
  have hexp : ((n.log2 : Int) - 52 + 1074).toNat = n.log2 + 1022 := by omega
  simp only [wholeMagnitude, if_neg h, nearest_whole h, hexp]

/-- A number between two powers of two has a significand between the leading bit and twice that. -/
theorem wholeSignificand_bounds {n : Nat} (h : n ≠ 0) :
    leadingBit ≤ wholeSignificand n n.log2 ∧ wholeSignificand n n.log2 ≤ 2 * leadingBit := by
  have hbit : leadingBit = 2 ^ 52 := rfl
  have hden : 0 < 1 <<< (n.log2 - 52) := by
    rw [Nat.one_shiftLeft]
    exact Nat.two_pow_pos _
  have hlow : 2 ^ n.log2 ≤ n := Nat.log2_self_le h
  have hhigh : n < 2 ^ (n.log2 + 1) := Nat.lt_log2_self
  -- One of the two shifts is by zero, so the number and the unit move by the same power.
  have hsame : 52 + (n.log2 - 52) = n.log2 + (52 - n.log2) := by omega
  constructor
  · refine le_roundHalfEven hden ?_
    rw [Nat.one_shiftLeft, Nat.shiftLeft_eq, hbit, ← Nat.pow_add, hsame, Nat.pow_add]
    exact Nat.mul_le_mul_right _ hlow
  · refine roundHalfEven_le hden ?_
    have htwice : 2 * 2 ^ 52 * 2 ^ (n.log2 - 52) = 2 ^ (n.log2 + 1) * 2 ^ (52 - n.log2) := by
      rw [← Nat.pow_succ', ← Nat.pow_add, ← Nat.pow_add]
      congr 1
      omega
    rw [Nat.one_shiftLeft, Nat.shiftLeft_eq, hbit, htwice]
    exact Nat.mul_lt_mul_of_pos_right hhigh (Nat.two_pow_pos _)

theorem wholeMagnitude_mono {m n : Nat} (h : m ≤ n) : wholeMagnitude m ≤ wholeMagnitude n := by
  by_cases hm : m = 0
  · rw [hm]
    exact Nat.zero_le _
  have hn : n ≠ 0 := by omega
  rw [wholeMagnitude_of_ne_zero hm, wholeMagnitude_of_ne_zero hn]
  refine min_le_min_right _ ?_
  have hlog : m.log2 ≤ n.log2 := by
    rw [Nat.log2_eq_log_two, Nat.log2_eq_log_two]
    exact Nat.log_mono_right h
  rcases Nat.lt_or_eq_of_le hlog with hlt | heq
  · have hmb := (wholeSignificand_bounds hm).2
    have hnb := (wholeSignificand_bounds hn).1
    have hstep : (m.log2 + 1022 + 1) * leadingBit ≤ (n.log2 + 1022) * leadingBit :=
      Nat.mul_le_mul_right _ (by omega)
    rw [Nat.succ_mul] at hstep
    omega
  · rw [heq]
    refine Nat.add_le_add_left (roundHalfEven_mono ?_ ?_) _
    · rw [Nat.one_shiftLeft]
      exact Nat.two_pow_pos _
    · rw [Nat.shiftLeft_eq, Nat.shiftLeft_eq]
      exact Nat.mul_le_mul_right _ h

/-! ### Words by sign and magnitude -/

theorem bits_ofMagnitude {negative : Bool} {magnitude : Nat} (h : magnitude < signBit) :
    (ofMagnitude negative magnitude).bits.toNat
      = if negative then signBit + magnitude else magnitude := by
  have hbit : signBit + signBit = 2 ^ 64 := rfl
  rw [ofMagnitude, UInt64.toNat_ofNat', Nat.mod_eq_of_lt]
  cases negative <;> simp <;> omega

theorem magnitude_ofMagnitude {negative : Bool} {magnitude : Nat} (h : magnitude < signBit) :
    (ofMagnitude negative magnitude).magnitude = magnitude := by
  rw [Binary64.magnitude, bits_ofMagnitude h]
  cases negative with
  | false => exact Nat.mod_eq_of_lt h
  | true => rw [if_pos rfl, Nat.add_mod_left, Nat.mod_eq_of_lt h]

theorem isNegative_ofMagnitude {negative : Bool} {magnitude : Nat} (h : magnitude < signBit) :
    (ofMagnitude negative magnitude).isNegative = negative := by
  rw [isNegative, bits_ofMagnitude h]
  cases negative <;> simp [h]

theorem isNaN_of_isFinite {x : Binary64} (h : x.isFinite = true) : x.isNaN = false := by
  simp only [isFinite, isNaN, decide_eq_true_eq, decide_eq_false_iff_not] at h ⊢
  omega

theorem isFinite_neg (x : Binary64) : x.neg.isFinite = x.isFinite := by
  have hmagnitude : x.magnitude < signBit := Nat.mod_lt _ (by decide)
  rw [isFinite, isFinite, neg, magnitude_ofMagnitude hmagnitude]

theorem ofInt_eq (n : Int) : ofInt n = ofMagnitude (n < 0) (wholeMagnitude n.natAbs) := by
  rw [ofInt, ofFraction, wholeMagnitude]
  split <;> rfl

theorem wholeMagnitude_lt (n : Nat) : wholeMagnitude n < signBit :=
  Nat.lt_of_le_of_lt (wholeMagnitude_le n) (by decide)

theorem isNegative_ofInt (n : Int) : (ofInt n).isNegative = decide (n < 0) := by
  rw [ofInt_eq, isNegative_ofMagnitude (wholeMagnitude_lt _)]

theorem magnitude_ofInt (n : Int) : (ofInt n).magnitude = wholeMagnitude n.natAbs := by
  rw [ofInt_eq, magnitude_ofMagnitude (wholeMagnitude_lt _)]

/-- **A whole number rounds to a number**, if only to an infinity. -/
theorem isNaN_ofInt (n : Int) : (ofInt n).isNaN = false := by
  have h := wholeMagnitude_le n.natAbs
  rw [isNaN, magnitude_ofInt]
  exact decide_eq_false (by omega)

/-- A whole number of 64 bits rounds to a finite number. -/
theorem isFinite_ofInt {n : Int} (h : n.natAbs ≤ 0x10000000000000000) :
    (ofInt n).isFinite = true := by
  have hle : wholeMagnitude n.natAbs ≤ wholeMagnitude 0x10000000000000000 := wholeMagnitude_mono h
  have hlt : wholeMagnitude 0x10000000000000000 < infinityMagnitude := by decide +kernel
  rw [isFinite, magnitude_ofInt]
  exact decide_eq_true (Nat.lt_of_le_of_lt hle hlt)

/-- **Rounding keeps the order of whole numbers.** -/
theorem key_ofInt_mono {m n : Int} (h : m ≤ n) : (ofInt m).key ≤ (ofInt n).key := by
  simp only [key, isNegative_ofInt, magnitude_ofInt, decide_eq_true_eq]
  by_cases hm : m < 0 <;> by_cases hn : n < 0
  · have hmono := wholeMagnitude_mono (show n.natAbs ≤ m.natAbs by omega)
    rw [if_pos hm, if_pos hn]
    omega
  · rw [if_pos hm, if_neg hn]
    omega
  · omega
  · have hmono := wholeMagnitude_mono (show m.natAbs ≤ n.natAbs by omega)
    rw [if_neg hm, if_neg hn]
    omega

/-! ### Whole numbers without rounding -/

/-- The number of floating point is the whole number exactly, and a zero is not negative. -/
structure Denotes (x : Binary64) (n : Int) : Prop where
  finite : x.isFinite = true
  sign : x.isNegative = decide (n < 0)
  size : x.fraction.1 = n.natAbs * x.fraction.2

theorem Denotes.unique {x : Binary64} {m n : Int} (hm : x.Denotes m) (hn : x.Denotes n) :
    m = n := by
  have hden : 0 < x.fraction.2 := by
    rw [fraction, Nat.one_shiftLeft]
    exact Nat.two_pow_pos _
  have habs : m.natAbs = n.natAbs := Nat.eq_of_mul_eq_mul_right hden (hm.size ▸ hn.size)
  have hsign : decide (m < 0) = decide (n < 0) := hm.sign.symm.trans hn.sign
  rw [decide_eq_decide] at hsign
  omega

end Binary64

end RowQuery
