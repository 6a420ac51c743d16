import RowQuery.Date
import RowQuery.Instant
import RowQuery.Text.Integer

/-!
# Instants as text

The written form is `YYYY-MM-DDThh:mm:ss`, an optional fraction, and an offset from universal
time. The reader takes any offset below a day and gives the instant; the writer gives universal
time, with the fewest of 0, 3, 6 or 9 places that hold the nanoseconds.

## Main definitions

* `Instant.read?`: the instant that a text stands for.
* `Instant.write`: date, time and fraction of an instant, without the offset.
* `Instant.display`, `Instant.inspect`: the same with `+00:00` and with `Z` behind.
-/

namespace RowQuery.Instant

/-! ### Reading -/

/-- Exactly `n` digits and what follows them. -/
def takeDigits (n : Nat) (cs : List Char) : Option (Nat × List Char) :=
  let ds := cs.take n
  if ds.length = n ∧ ds.all Char.isDigit then some (Text.digitsValue ds, cs.drop n) else none

/-- What follows a given character. -/
def expect (c : Char) : List Char → Option (List Char)
  | d :: rest => if d = c then some rest else none
  | [] => none

/-- The date `YYYY-MM-DD`, and what follows it. -/
def readDate? (cs : List Char) : Option (Date × List Char) := do
  let (year, cs) ← takeDigits 4 cs
  let cs ← expect '-' cs
  let (month, cs) ← takeDigits 2 cs
  let cs ← expect '-' cs
  let (day, cs) ← takeDigits 2 cs
  let date : Date := ⟨year, month, day⟩
  if date.isValid then some (date, cs) else none

/-- What follows the sign between date and time. -/
def readSeparator? : List Char → Option (List Char)
  | 'T' :: rest | 't' :: rest | ' ' :: rest => some rest
  | _ => none

/-- The time of day `hh:mm:ss`, in seconds. The second 60 is given as the 59th, with the mark of a
leap second. -/
def readTime? (cs : List Char) : Option (Nat × Bool × List Char) := do
  let (hour, cs) ← takeDigits 2 cs
  let cs ← expect ':' cs
  let (minute, cs) ← takeDigits 2 cs
  let cs ← expect ':' cs
  let (second, cs) ← takeDigits 2 cs
  if hour ≤ 23 ∧ minute ≤ 59 ∧ second ≤ 60 then
    some (hour * 3600 + minute * 60 + min second 59, second == 60, cs)
  else none

/-- The fraction of a second in nanoseconds: nine places, filled up with zeros; those beyond the
ninth are dropped. -/
def readNanos? : List Char → Option (Nat × List Char)
  | '.' :: cs =>
    let ds := cs.takeWhile Char.isDigit
    let places := (ds ++ List.replicate 9 '0').take 9
    if ds.isEmpty then none
    else some (Text.digitsValue places, cs.dropWhile Char.isDigit)
  | cs => some (0, cs)

/-- The sign of an offset: the hyphen and the minus sign are the same. -/
def readSign? : List Char → Option (Int × List Char)
  | '+' :: rest => some (1, rest)
  | '-' :: rest | '\u2212' :: rest => some (-1, rest)
  | _ => none

/-- The offset from universal time in seconds: `Z`, or a sign and `hh:mm` below a day. -/
def readOffset? : List Char → Option (Int × List Char)
  | 'Z' :: rest | 'z' :: rest => some (0, rest)
  | cs => do
    let (sign, cs) ← readSign? cs
    let (hours, cs) ← takeDigits 2 cs
    let cs ← expect ':' cs
    let (minutes, cs) ← takeDigits 2 cs
    if hours ≤ 23 ∧ minutes ≤ 59 then some (sign * (hours * 3600 + minutes * 60 : Nat), cs)
    else none

/-- The instant that a whole text stands for. -/
def read? (s : String) : Option Instant := do
  let (date, cs) ← readDate? s.toList
  let cs ← readSeparator? cs
  let (time, leap, cs) ← readTime? cs
  let (nanos, cs) ← readNanos? cs
  let (offset, cs) ← readOffset? cs
  if cs.isEmpty then
    some ⟨date.dayNumber * 86400 + time - offset, if leap then nanos + secondNanos else nanos⟩
  else none

/-! ### Writing -/

/-- The year in four digits, or with a sign and at least four digits outside 0 to 9999. -/
def writeYear (year : Int) : List Char :=
  let digits := Text.padded 4 year.natAbs
  if year < 0 then '-' :: digits
  else if 9999 < year then '+' :: digits
  else digits

/-- The fraction of a second behind a point, in 3, 6 or 9 places; none for a whole second. -/
def writeFraction (nanos : Nat) : List Char :=
  if nanos = 0 then []
  else if nanos % 1000000 = 0 then '.' :: Text.padded 3 (nanos / 1000000)
  else if nanos % 1000 = 0 then '.' :: Text.padded 6 (nanos / 1000)
  else '.' :: Text.padded 9 nanos

/-- Date, time and fraction in universal time. A leap second shows as the second after its own
count. -/
def write (t : Instant) : List Char :=
  let date := Date.ofDayNumber (t.seconds / 86400)
  let time := (t.seconds % 86400).toNat
  let leap := secondNanos ≤ t.nanos
  let second := time % 60 + (if leap then 1 else 0)
  let nanos := if leap then t.nanos - secondNanos else t.nanos
  writeYear date.year ++ '-' :: Text.padded 2 date.month ++ '-' :: Text.padded 2 date.day ++
    'T' :: Text.padded 2 (time / 3600) ++ ':' :: Text.padded 2 (time / 60 % 60) ++
    ':' :: Text.padded 2 second ++ writeFraction nanos

/-- The instant with the offset of universal time. -/
def display (t : Instant) : String :=
  String.ofList (t.write ++ ['+', '0', '0', ':', '0', '0'])

/-- The instant with the letter of universal time. -/
def inspect (t : Instant) : String :=
  String.ofList (t.write ++ ['Z'])

end RowQuery.Instant
