import RowQuery.Binary64

/-!
# The fewest digits that read back

A finite number is named by the decimal with the fewest digits among those that round to it; of
several such decimals the one nearest to the number is taken, and a tie goes as the caller says.

## Main definitions

* `Decimal`: digits and a power of ten.
* `Binary64.readsBack`: a decimal rounds to the number.
* `Binary64.shortest`: the decimal that names the number.
-/

namespace RowQuery

/-- The number `digits` times ten to `exponent`. -/
structure Decimal where
  digits : Nat
  exponent : Int
  deriving DecidableEq, Repr

/-- Which of two equally near decimals is taken. -/
inductive Tie where
  | upper
  | even
  deriving DecidableEq, Repr

namespace Decimal

/-- How the decimal compares with `n` times two to `e`. -/
def compareDyadic (d : Decimal) (n : Nat) (e : Int) : Ordering :=
  compare (d.digits * Nat.pow 10 d.exponent.toNat <<< (-e).toNat)
    (n * Nat.pow 10 (-d.exponent).toNat <<< e.toNat)

/-- The same decimal without zeros at the end of its digits; zero digits stay. -/
def strip : Nat → Decimal → Decimal
  | 0, d => d
  | fuel + 1, d =>
    if d.digits ≠ 0 ∧ d.digits % 10 = 0 then strip fuel ⟨d.digits / 10, d.exponent + 1⟩ else d

end Decimal

namespace Binary64

/-- The gap to the number below is half the gap to the number above. -/
def narrowBelow (x : Binary64) : Bool :=
  x.magnitude % leadingBit == 0 && 1 < x.magnitude / leadingBit

/-- The decimal lies among the reals that round to the number: between the midpoints to its two
neighbours, midpoints included when the significand is even. -/
def readsBack (x : Binary64) (d : Decimal) : Bool :=
  let m := x.significand
  let low := if x.narrowBelow then 4 * m - 1 else 4 * m - 2
  let atLow := d.compareDyadic low (x.exponent - 2)
  let atHigh := d.compareDyadic (4 * m + 2) (x.exponent - 2)
  let ends := m % 2 == 0
  (atLow == .gt || (ends && atLow == .eq)) && (atHigh == .lt || (ends && atHigh == .eq))

/-- The least `k` with a positive fraction below ten to `k`. -/
def decimalExponent (num den : Nat) : Int :=
  if den ≤ num then (Nat.toDigits 10 (num / den)).length
  else 1 - ((Nat.toDigits 10 ((den - 1) / num)).length : Int)

/-- The candidate with `count` digits: of the two decimals around the number on the grid of that
many digits, the nearer one that reads back. -/
def candidate (tie : Tie) (x : Binary64) (count : Nat) : Option Decimal :=
  let (num, den) := x.fraction
  let g := decimalExponent num den - count
  let scaled := num * Nat.pow 10 (-g).toNat
  let unit := den * Nat.pow 10 g.toNat
  let below := scaled / unit
  let lower : Decimal := ⟨below, g⟩
  let upper : Decimal := ⟨below + 1, g⟩
  match x.readsBack lower, x.readsBack upper with
  | true, true =>
    match compare (2 * scaled) ((2 * below + 1) * unit), tie with
    | .lt, _ => some lower
    | .gt, _ => some upper
    | .eq, .upper => some upper
    | .eq, .even => some (if below % 2 = 0 then lower else upper)
  | true, false => some lower
  | false, true => some upper
  | false, false => none

/-- The decimal with the fewest digits that reads back to a finite positive number. Seventeen
digits always suffice; the exact value stands behind the search all the same. -/
def shortest (tie : Tie) (x : Binary64) : Decimal :=
  match (List.range' 1 17).findSome? (candidate tie x) with
  | some d => d.strip 17
  | none =>
    let (num, den) := x.fraction
    ⟨num * Nat.pow 5 den.log2, -(den.log2 : Int)⟩

end Binary64

end RowQuery
