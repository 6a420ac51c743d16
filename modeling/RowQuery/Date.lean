/-!
# Dates

Dates of the Gregorian calendar, extended to all years, and the number of a day counted from the
first of January 1970.

## Main definitions

* `Date`, `Date.isValid`: dates, and those that exist.
* `Date.dayNumber`, `Date.ofDayNumber`: the number of a date's day, and the date of a number.
-/

namespace RowQuery

/-- A date of the Gregorian calendar. -/
structure Date where
  year : Int
  month : Nat
  day : Nat
  deriving DecidableEq, Repr

namespace Date

/-- A year with a 29th of February. -/
def isLeapYear (year : Int) : Bool :=
  year % 4 == 0 && (year % 100 != 0 || year % 400 == 0)

/-- The number of days of a month, zero if there is no such month. -/
def daysInMonth (year : Int) : Nat → Nat
  | 1 | 3 | 5 | 7 | 8 | 10 | 12 => 31
  | 4 | 6 | 9 | 11 => 30
  | 2 => if isLeapYear year then 29 else 28
  | _ => 0

/-- The date exists. -/
def isValid (d : Date) : Bool :=
  1 ≤ d.day && d.day ≤ daysInMonth d.year d.month

/-- The number of days from the first of January of year 1 to that of the given year. -/
def daysBeforeYear (year : Int) : Int :=
  let y := year - 1
  365 * y + y / 4 - y / 100 + y / 400

/-- The days of the year that lie before a month. -/
def daysBeforeMonth (year : Int) (month : Nat) : Nat :=
  (List.range' 1 (month - 1)).foldl (fun days m => days + daysInMonth year m) 0

/-- The days from the first of January of year 1 to that of 1970. -/
def epochOffset : Int := 719162

/-- The number of a date's day, counted from the first of January 1970. -/
def dayNumber (d : Date) : Int :=
  daysBeforeYear d.year + daysBeforeMonth d.year d.month + d.day - 1 - epochOffset

/-- The month and day of the day with a given number in its year, counted from a month on. -/
def monthAndDay (year : Int) : Nat → Nat → Nat → Nat × Nat
  | 0, month, day => (month, day + 1)
  | fuel + 1, month, day =>
    if daysInMonth year month ≤ day then
      monthAndDay year fuel (month + 1) (day - daysInMonth year month)
    else (month, day + 1)

/-- The date of the day with a given number, counted from the first of January 1970. -/
def ofDayNumber (days : Int) : Date :=
  let n := days + epochOffset
  -- A whole cycle of 400 years has 146097 days, so this guess is the year or the one after it.
  let guess := (400 * n) / 146097 + 1
  let year :=
    if n < daysBeforeYear guess then guess - 1
    else if daysBeforeYear (guess + 1) ≤ n then guess + 1 else guess
  let (month, day) := monthAndDay year 11 1 (n - daysBeforeYear year).toNat
  ⟨year, month, day⟩

end Date

end RowQuery
