/-!
# Binary floating-point numbers of 64 bits

A number is its word: a sign bit, eleven bits of exponent and 52 of fraction. Everything about it
is read off the word in whole-number arithmetic, so each operation can be evaluated and reasoned
about.

Without its sign bit the word grows with the absolute value. Both orders are orders of whole numbers
read off the word that way (`key`, `totalKey`), and no case on exponents or fractions is needed.

## Main definitions

* `Binary64`: the word.
* `Binary64.compare?`: the order of the numbers, in which the two zeros are one number and NaN is
  comparable with nothing.
* `Binary64.totalCompare`: the total order of the words, from the negative NaNs to the positive
  ones, with `-0.0` below `0.0`.
* `Binary64.significand`, `Binary64.exponent`: a finite number is the first times two to the second.

## Main results

* `compare?_swap`, `compare?_self_iff`: comparing backwards, and which numbers equal themselves.
* `totalCompare_swap`, `totalCompare_trans`: the total order is one.
-/

namespace RowQuery

/-- A binary floating-point number of 64 bits, as its word. -/
structure Binary64 where
  bits : UInt64
  deriving DecidableEq, Repr

namespace Binary64

/-- The sign bit alone. -/
def signBit : Nat := 0x8000000000000000

/-- The bit above those of the fraction, which leads the significand of most numbers. -/
def leadingBit : Nat := 0x10000000000000

/-- The word of an infinity without its sign; a larger magnitude is a NaN. -/
def infinityMagnitude : Nat := 0x7FF0000000000000

/-- The word without its sign bit. It grows with the absolute value. -/
def magnitude (x : Binary64) : Nat :=
  x.bits.toNat % signBit

/-- The sign bit is set. -/
def isNegative (x : Binary64) : Bool :=
  signBit ≤ x.bits.toNat

/-- The word stands for no number. -/
def isNaN (x : Binary64) : Bool :=
  infinityMagnitude < x.magnitude

/-- The word is one of the two infinities. -/
def isInfinite (x : Binary64) : Bool :=
  x.magnitude == infinityMagnitude

/-- The word stands for a real number. -/
def isFinite (x : Binary64) : Bool :=
  x.magnitude < infinityMagnitude

/-- The number, unless it is an infinity or no number. -/
def finite? (x : Binary64) : Option Binary64 :=
  if x.isFinite then some x else none

theorem finite?_eq_some {x y : Binary64} : x.finite? = some y ↔ x.isFinite = true ∧ x = y := by
  unfold finite?
  split <;> simp_all

/-- The number with a given sign and magnitude. -/
def ofMagnitude (negative : Bool) (magnitude : Nat) : Binary64 :=
  ⟨UInt64.ofNat (if negative then signBit + magnitude else magnitude)⟩

/-- The number with the other sign. -/
def neg (x : Binary64) : Binary64 :=
  ofMagnitude (!x.isNegative) x.magnitude

/-! ### Order -/

/-- The place of a number among the numbers; both zeros have place zero. -/
def key (x : Binary64) : Int :=
  if x.isNegative then -(x.magnitude : Int) else x.magnitude

/-- The place of a word among all words. -/
def totalKey (x : Binary64) : Int :=
  if x.isNegative then -(x.magnitude : Int) - 1 else x.magnitude

/-- The order of two numbers; NaN is comparable with nothing. -/
def compare? (x y : Binary64) : Option Ordering :=
  if x.isNaN || y.isNaN then none else some (Ord.compare x.key y.key)

/-- The order of two words, NaNs included. -/
def totalCompare (x y : Binary64) : Ordering :=
  Ord.compare x.totalKey y.totalKey

theorem compare?_swap (x y : Binary64) :
    y.compare? x = (x.compare? y).map Ordering.swap := by
  unfold compare?
  rw [Bool.or_comm]
  split
  · rfl
  · simp [← Std.OrientedCmp.eq_swap]

theorem compare?_self_iff (x : Binary64) : x.compare? x = some .eq ↔ x.isNaN = false := by
  unfold compare?
  cases x.isNaN <;> simp

theorem totalCompare_swap (x y : Binary64) : y.totalCompare x = (x.totalCompare y).swap := by
  simp [totalCompare, ← Std.OrientedCmp.eq_swap]

theorem totalCompare_trans {x y z : Binary64} (h : x.totalCompare y ≠ .gt)
    (h' : y.totalCompare z ≠ .gt) : x.totalCompare z ≠ .gt := by
  simp only [totalCompare, ne_eq, Int.compare_eq_gt, Int.not_lt] at *
  omega

/-! ### The exact value of a finite number -/

/-- The whole number that, scaled by a power of two, is the absolute value. -/
def significand (x : Binary64) : Nat :=
  if x.magnitude < leadingBit then x.magnitude else leadingBit + x.magnitude % leadingBit

/-- The power of two that scales the significand. -/
def exponent (x : Binary64) : Int :=
  (max (x.magnitude / leadingBit) 1 : Nat) - 1075

/-- The absolute value of a finite number as a fraction. -/
def fraction (x : Binary64) : Nat × Nat :=
  (x.significand <<< x.exponent.toNat, 1 <<< (-x.exponent).toNat)

end Binary64

end RowQuery
