/-!
# Whole numbers in decimal

A signed whole number is written with an optional sign and at least one digit; 64-bit readers
refuse what does not fit.

## Main definitions

* `digitsValue`: the number that a run of digits stands for.
* `readInt64?`: a signed 64-bit number.
* `intDigits`, `showInt`: the decimal text of a number, with `-` before a negative one.
-/

namespace RowQuery.Text

/-- The value of an ASCII digit. -/
def digitValue (c : Char) : Nat :=
  c.toNat - '0'.toNat

/-- The number written by a run of digits, most significant first. -/
def digitsValue (ds : List Char) : Nat :=
  ds.foldl (fun n c => 10 * n + digitValue c) 0

/-- A run of one or more digits and nothing else. -/
def readNat? (cs : List Char) : Option Nat :=
  if cs ≠ [] ∧ cs.all Char.isDigit then some (digitsValue cs) else none

/-- A whole number with an optional sign `+` or `-`. -/
def readInt? : List Char → Option Int
  | '-' :: ds => (readNat? ds).map fun n => -(n : Int)
  | '+' :: ds => (readNat? ds).map Int.ofNat
  | ds => (readNat? ds).map Int.ofNat

/-- The number is one of the 64-bit signed ones. -/
def fitsInt64 (n : Int) : Bool :=
  -0x8000000000000000 ≤ n && n < 0x8000000000000000

/-- A whole number with an optional sign that fits in 64 bits. -/
def readInt64? (cs : List Char) : Option Int64 :=
  match readInt? cs with
  | some n => if fitsInt64 n then some (Int64.ofInt n) else none
  | none => none

/-- The decimal text of a natural number, padded with zeros to a width. -/
def padded (width n : Nat) : List Char :=
  let ds := Nat.toDigits 10 n
  List.replicate (width - ds.length) '0' ++ ds

/-- The decimal characters of a whole number. -/
def intDigits (n : Int) : List Char :=
  if n < 0 then '-' :: Nat.toDigits 10 n.natAbs else Nat.toDigits 10 n.natAbs

/-- The decimal text of a whole number. -/
def showInt (n : Int) : String :=
  String.ofList (intDigits n)

end RowQuery.Text
