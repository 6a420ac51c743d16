import RowQuery.Binary64.Rounding
import RowQuery.Json
import RowQuery.Json.Fault

/-!
# Numbers in JSON texts

A numeral is a sign, whole digits without a leading zero, an optional fraction and an optional
exponent. Its first digits, as many as fit in 64 bits, make the significand; whole digits beyond
them only count, and digits of the fraction beyond them are dropped. A numeral without fraction and
exponent whose digits fit is a whole number; any other one is the significand, rounded, times or
divided by a rounded power of ten.

## Main definitions

* `Json.Numeral`: the parts of a numeral.
* `Json.Numeral.scan`: the numeral at the start of a text.
* `Json.Numeral.value`: the number that a numeral stands for.
-/

namespace RowQuery.Json

/-- The parts of a numeral; an empty fraction is none. -/
structure Numeral where
  negative : Bool
  whole : List Char
  fraction : List Char
  /-- The sign and the digits of the exponent. -/
  exponent : Option (Bool × List Char)
  deriving DecidableEq, Repr

namespace Numeral

/-! ### Scanning -/

/-- A digit is missing: the text may have ended there, and only a reader of the value tells. -/
def missingDigit : List Char → Break
  | [] => ⟨.ended, .malformed, .malformed⟩
  | _ :: _ => .malformed

/-- One or more digits, and what follows them. -/
def scanDigits (cs : List Char) : Except Break (List Char × List Char) :=
  let ds := cs.takeWhile Char.isDigit
  let rest := cs.dropWhile Char.isDigit
  if ds.isEmpty then .error (missingDigit rest) else .ok (ds, rest)

/-- The whole digits: a lone zero, or digits that do not begin with one. -/
def scanWhole (cs : List Char) : Except Break (List Char × List Char) := do
  let (ds, rest) ← scanDigits cs
  match ds with
  | '0' :: _ :: _ => .error .malformed
  | _ => .ok (ds, rest)

/-- The digits behind a point, if there is one. -/
def scanFraction : List Char → Except Break (List Char × List Char)
  | '.' :: cs => scanDigits cs
  | cs => .ok ([], cs)

/-- The sign of an exponent; the plus sign may be left out. -/
def scanSign : List Char → Bool × List Char
  | '+' :: cs => (false, cs)
  | '-' :: cs => (true, cs)
  | cs => (false, cs)

/-- The digits of an exponent behind its letter and sign. -/
def scanPower (cs : List Char) : Except Break (Option (Bool × List Char) × List Char) := do
  let (negative, cs) := scanSign cs
  let (ds, rest) ← scanDigits cs
  .ok (some (negative, ds), rest)

/-- The exponent, if there is one. -/
def scanExponent : List Char → Except Break (Option (Bool × List Char) × List Char)
  | 'e' :: cs | 'E' :: cs => scanPower cs
  | cs => .ok (none, cs)

/-- The numeral behind its sign, and what follows it. -/
def scanUnsigned (negative : Bool) (cs : List Char) : Except Break (Numeral × List Char) := do
  let (whole, cs) ← scanWhole cs
  let (fraction, cs) ← scanFraction cs
  let (exponent, cs) ← scanExponent cs
  .ok (⟨negative, whole, fraction, exponent⟩, cs)

/-- The numeral at the start of a text, and what follows it. -/
def scan : List Char → Except Break (Numeral × List Char)
  | '-' :: cs => scanUnsigned true cs
  | cs => scanUnsigned false cs

/-! ### Value -/

/-- Digits are taken into a number while it stays within a limit; the digits left over follow. -/
def absorb (limit : Nat) (n : Nat) : List Char → Nat × List Char
  | [] => (n, [])
  | d :: ds =>
    let n' := n * 10 + Text.digitValue d
    if n' ≤ limit then absorb limit n' ds else (n, d :: ds)

/-- A number times ten to `e`, one power of at most 308 at a time; nothing if it is too large. -/
def scale (x : Binary64) (e : Int) : Option Binary64 :=
  if e.natAbs ≤ 308 then
    let power := Binary64.powerOfTen e.natAbs
    (if 0 ≤ e then x.mul power else x.div power).finite?
  else if x.magnitude = 0 then some x
  else if 0 ≤ e then none
  else scale (x.div (.powerOfTen 308)) (e + 308)
termination_by (-e).toNat
decreasing_by omega

/-- The largest significand. -/
def significandLimit : Nat := 0xFFFFFFFFFFFFFFFF

/-- The largest exponent that is computed with. -/
def exponentLimit : Nat := 0x7FFFFFFF

/-- The absolute value of a numeral with a fraction, an exponent or too many digits. -/
def scaled (significand : Nat) (shift : Int) :
    Option (Bool × List Char) → Option Binary64
  | none => scale (.ofInt significand) shift
  | some (negative, ds) =>
    match absorb exponentLimit 0 ds with
    | (e, []) => scale (.ofInt significand) (if negative then shift - e else shift + e)
    | (_, _ :: _) => if significand ≠ 0 ∧ !negative then none else some (.ofMagnitude false 0)

/-- The whole number of a sign and a significand. The negative zero and what lies below the signed
64-bit numbers are numbers of floating point. -/
def wholeNumber (negative : Bool) (significand : Nat) : Number :=
  if !negative then .int significand
  else if significand = 0 ∨ !Text.fitsInt64 (-significand) then
    .float (Binary64.ofInt significand).neg
  else .int (-(significand : Int))

/-- The number that a numeral stands for; a numeral beyond the range of numbers is malformed. -/
def value (n : Numeral) : Except Fault Number :=
  let (significand, extra) := absorb significandLimit 0 n.whole
  if extra = [] ∧ n.fraction = [] ∧ n.exponent = none then
    .ok (wholeNumber n.negative significand)
  else
    let (significand, dropped) := absorb significandLimit significand n.fraction
    let shift : Int := (extra.length : Int) - (n.fraction.length - dropped.length : Nat)
    match scaled significand shift n.exponent with
    | some x => .ok (.float (if n.negative then x.neg else x))
    | none => .error .malformed

end Numeral

end RowQuery.Json
