import RowQuery.Binary64

/-!
# Rounding to the nearest number

A positive fraction becomes the nearest number of a binary format, a tie going to the even
significand, and what is too large becomes an infinity. Arithmetic is exact arithmetic followed by
one rounding.

## Main definitions

* `roundHalfEven`: a quotient to the nearest whole number.
* `nearest`: a fraction to a significand and an exponent of a format.
* `Binary64.ofFraction`, `Binary64.ofInt`, `Binary64.mul`, `Binary64.div`: the results in 64 bits.
* `Binary64.toSingle`: the number that 32 bits can hold, in 64 bits again.

## Main results

* `roundHalfEven_near`: the rounding is off by at most half a unit.
-/

namespace RowQuery

/-- The whole number nearest to a quotient; a half goes to the even neighbour. -/
def roundHalfEven (num den : Nat) : Nat :=
  let q := num / den
  let r := num % den
  if den < 2 * r || (2 * r == den && q % 2 == 1) then q + 1 else q

theorem roundHalfEven_near {num den : Nat} (h : 0 < den) :
    2 * (roundHalfEven num den * den) ≤ 2 * num + den ∧
      2 * num ≤ 2 * (roundHalfEven num den * den) + den := by
  have hq := Nat.div_add_mod num den
  have hr := Nat.mod_lt num h
  have hc : den * (num / den) = num / den * den := Nat.mul_comm _ _
  simp only [roundHalfEven]
  split
  · rename_i hcond
    have h2 : (num / den + 1) * den = num / den * den + den := Nat.succ_mul _ _
    simp at hcond
    omega
  · rename_i hcond
    simp at hcond
    omega

/-- The exponent of the greatest power of two that is at most a positive fraction. -/
def binaryExponent (num den : Nat) : Int :=
  let e : Int := (num.log2 : Int) - den.log2
  if num <<< (-e).toNat < den <<< e.toNat then e - 1 else e

/-- The nearest number of a format with `precision` bits whose least unit is two to `least`: a
significand and the power of two that scales it. -/
def nearest (precision : Nat) (least : Int) (num den : Nat) : Nat × Int :=
  let e := max (binaryExponent num den - (precision - 1 : Nat)) least
  (roundHalfEven (num <<< (-e).toNat) (den <<< e.toNat), e)

namespace Binary64

/-- The number nearest to a fraction with a sign. -/
def ofFraction (negative : Bool) (num den : Nat) : Binary64 :=
  if num = 0 then ofMagnitude negative 0
  else
    let (m, e) := nearest 53 (-1074) num den
    ofMagnitude negative (min ((e + 1074).toNat * leadingBit + m) infinityMagnitude)

/-- The number nearest to a whole number. -/
def ofInt (n : Int) : Binary64 :=
  ofFraction (n < 0) n.natAbs 1

/-- The number nearest to a product of finite numbers. -/
def mul (x y : Binary64) : Binary64 :=
  ofFraction (x.isNegative != y.isNegative)
    (x.fraction.1 * y.fraction.1) (x.fraction.2 * y.fraction.2)

/-- The number nearest to a quotient of finite numbers, the second one not zero. -/
def div (x y : Binary64) : Binary64 :=
  ofFraction (x.isNegative != y.isNegative)
    (x.fraction.1 * y.fraction.2) (x.fraction.2 * y.fraction.1)

/-- The number nearest to a power of ten. -/
def powerOfTen (n : Nat) : Binary64 :=
  ofFraction false (Nat.pow 10 n) 1

/-- The bit that marks a NaN as quiet. -/
def quietBit : Nat := 0x8000000000000

/-- The nearest number that 32 bits can hold. A NaN keeps its sign and the upper bits of its
payload and becomes a quiet one. -/
def toSingle (x : Binary64) : Binary64 :=
  if x.isNaN then
    ofMagnitude x.isNegative (x.magnitude >>> 29 <<< 29 ||| quietBit)
  else if x.isInfinite || x.significand = 0 then x
  else
    let (m, e) := nearest 24 (-149) x.fraction.1 x.fraction.2
    if 1 <<< 128 ≤ m <<< e.toNat then ofMagnitude x.isNegative infinityMagnitude
    else ofFraction x.isNegative (m <<< e.toNat) (1 <<< (-e).toNat)

end Binary64

end RowQuery
