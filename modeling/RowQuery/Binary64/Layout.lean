import RowQuery.Binary64.Shortest
import RowQuery.Text.Integer

/-!
# Numbers as text

The digits that name a number are laid out positionally, with at least one place after the point,
while the number is neither too small nor too large, and with an exponent after `e` otherwise.

## Main definitions

* `Layout`: where positional texts begin and end, which way a tie between digits goes, and how a
  power of ten is signed.
* `Layout.write`: the text of a number.
-/

namespace RowQuery

/-- The decisions of a text format for numbers. -/
structure Layout where
  /-- A number at or above ten to this power is positional … -/
  least : Int
  /-- … if it lies below ten to this power. -/
  bound : Int
  /-- Which of two equally near digit strings is written. -/
  tie : Tie
  /-- A positive power of ten carries a plus sign. -/
  signed : Bool

namespace Layout

/-- The digits with the point after `point` of them (before all of them when `point ≤ 0`). -/
def positional (ds : List Char) (point : Int) : List Char :=
  if point ≤ 0 then '0' :: '.' :: (List.replicate (-point).toNat '0' ++ ds)
  else if ds.length ≤ point.toNat then
    ds ++ List.replicate (point.toNat - ds.length) '0' ++ ['.', '0']
  else ds.take point.toNat ++ '.' :: ds.drop point.toNat

/-- A power of ten: its sign, where it has one, and its digits. -/
def power (l : Layout) (n : Int) : List Char :=
  if l.signed && 0 < n then '+' :: Text.intDigits n else Text.intDigits n

/-- The digits with the point after the first one and a power of ten. -/
def scientific (l : Layout) (ds : List Char) (point : Int) : List Char :=
  let e := l.power (point - 1)
  match ds with
  | [] => 'e' :: e
  | [d] => d :: 'e' :: e
  | d :: rest => d :: '.' :: (rest ++ 'e' :: e)

/-- The text of a positive decimal. -/
def writeDecimal (l : Layout) (d : Decimal) : List Char :=
  let ds := Nat.toDigits 10 d.digits
  let point := d.exponent + ds.length
  if l.least < point && point ≤ l.bound then positional ds point else l.scientific ds point

/-- The text of a number. Zeros keep their sign; the three other words have names. -/
def write (l : Layout) (x : Binary64) : List Char :=
  if x.isNaN then ['N', 'a', 'N']
  else
    let body :=
      if x.isInfinite then ['i', 'n', 'f']
      else if x.significand = 0 then ['0', '.', '0']
      else l.writeDecimal (x.shortest l.tie)
    if x.isNegative then '-' :: body else body

end Layout

end RowQuery
