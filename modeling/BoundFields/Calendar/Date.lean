/-!
# Dates

Days of the proleptic Gregorian calendar, held as a year and a day of that year, with the month,
the weekday and the three ways of counting weeks derived from them. Dates are compared as they
follow each other.
-/

set_option autoImplicit false

namespace BoundFields

/-- A year divisible by four, unless it ends a century that is not divisible by 400. -/
def isLeapYear (year : Int) : Bool :=
  year % 4 == 0 && (year % 100 != 0 || year % 400 == 0)

/-- How many days a year has. -/
def daysInYear (year : Int) : Nat := if isLeapYear year then 366 else 365

/-- The lengths of the months of a year, January first. -/
def monthLengths (year : Int) : List Nat :=
  [31, if isLeapYear year then 29 else 28, 31, 30, 31, 30, 31, 31, 30, 31, 30, 31]

/-- The days from 1 January of the year 1 to the last day before `year`. -/
def daysBeforeYear (year : Int) : Int :=
  let y := year - 1
  365 * y + y / 4 - y / 100 + y / 400

/-- A day of a year, the first day being number 1. -/
structure Date where
  year : Int
  ordinal : Nat
deriving DecidableEq, Repr, Inhabited

namespace Date

/-- The first year that dates can have. -/
def firstYear : Int := -262143

/-- The last year that dates can have. -/
def lastYear : Int := 262142

/-- The day with this number in the year, if there is one. -/
def ofOrdinal? (year : Int) (ordinal : Nat) : Option Date :=
  if firstYear ≤ year ∧ year ≤ lastYear ∧ 1 ≤ ordinal ∧ ordinal ≤ daysInYear year then
    some ⟨year, ordinal⟩
  else none

/-- The day with this number in the month, if there is one. -/
def ofMonthDay? (year : Int) (month day : Nat) : Option Date :=
  if month = 0 then none
  else match (monthLengths year)[month - 1]? with
    | none => none
    | some length =>
        if 1 ≤ day ∧ day ≤ length then
          ofOrdinal? year (((monthLengths year).take (month - 1)).foldl (· + ·) day)
        else none

/-- The month and the day of the month reached after `ordinal` days in months of these lengths,
the first of which has the number `month`. -/
def monthDayIn : List Nat → Nat → Nat → Nat × Nat
  | [], month, ordinal => (month, ordinal)
  | length :: more, month, ordinal =>
      if ordinal ≤ length then (month, ordinal) else monthDayIn more (month + 1) (ordinal - length)

/-- The month and the day of the month. -/
def monthDay (d : Date) : Nat × Nat := monthDayIn (monthLengths d.year) 1 d.ordinal

/-- The month of a day, 1 for January. -/
def month (d : Date) : Nat := d.monthDay.1

/-- The day of the month, the first being number 1. -/
def day (d : Date) : Nat := d.monthDay.2

/-- The quarter of the year, from 1 to 4. -/
def quarter (d : Date) : Nat := (d.month + 2) / 3

/-- The weekday of a day, 0 for Monday to 6 for Sunday. -/
def weekday (d : Date) : Nat := ((daysBeforeYear d.year + d.ordinal - 1) % 7).toNat

/-- How many days the weekday `w` lies behind the weekday `start`. -/
def daysSince (w start : Nat) : Nat := (w + 7 - start) % 7

/-- The number of the week of the year, weeks starting on weekday `start` and the days before the
first such day belonging to week 0. -/
def weekFrom (start : Nat) (d : Date) : Nat := (d.ordinal + 6 - daysSince d.weekday start) / 7

/-- The number of weeks of a year: a week belongs to the year that holds its Thursday. -/
def isoWeeksIn (year : Int) : Nat :=
  let first := weekday ⟨year, 1⟩
  if first = 3 ∨ (first = 2 ∧ isLeapYear year = true) then 53 else 52

/-- The year that the week of a day belongs to, and the number of that week in it. -/
def isoWeek (d : Date) : Int × Nat :=
  let week := (d.ordinal + 9 - d.weekday) / 7
  if week = 0 then (d.year - 1, isoWeeksIn (d.year - 1))
  else if isoWeeksIn d.year < week then (d.year + 1, 1)
  else (d.year, week)

/-- The day with this weekday in this week of the year `year` of whole weeks. -/
def ofIsoWeek? (year : Int) (week weekday : Nat) : Option Date :=
  if 1 ≤ week ∧ week ≤ isoWeeksIn year then
    -- The fourth of January is always in week 1.
    let first := Date.weekday ⟨year, 4⟩
    let ordinal : Int := 7 * week - 3 + weekday - first
    if ordinal ≤ 0 then
      ofOrdinal? (year - 1) (ordinal + daysInYear (year - 1)).toNat
    else if (daysInYear year : Int) < ordinal then
      ofOrdinal? (year + 1) (ordinal - daysInYear year).toNat
    else ofOrdinal? year ordinal.toNat
  else none

/-- The day with this weekday in this week of the year, weeks starting on weekday `start` and the
first such day opening week 1. -/
def ofWeek? (start : Nat) (year : Int) (week weekday : Nat) : Option Date :=
  let first := 1 + daysSince start (Date.weekday ⟨year, 1⟩)
  let ordinal : Int := first + ((week : Int) - 1) * 7 + daysSince weekday start
  if week ≤ 53 ∧ 0 < ordinal then ofOrdinal? year ordinal.toNat else none

/-- Whether `a` is no later than `b`. -/
def le (a b : Date) : Bool := a.year < b.year || (a.year == b.year && a.ordinal ≤ b.ordinal)

end Date

/-- A number in decimal digits, padded in front to at least `width` characters. -/
def padded (pad : Char) (width n : Nat) : List Char :=
  let digits := Nat.toDigits 10 n
  List.replicate (width - digits.length) pad ++ digits

/-- A year in at least four digits, with a sign outside the years 0 to 9999. -/
def yearDigits (year : Int) : List Char :=
  if 0 ≤ year ∧ year ≤ 9999 then padded '0' 4 year.toNat
  else (if year < 0 then '-' else '+') :: padded '0' 4 year.natAbs

/-- The year, month and day between hyphens. -/
def Date.iso (d : Date) : String :=
  String.ofList (yearDigits d.year ++ '-' :: (padded '0' 2 d.month ++ '-' :: padded '0' 2 d.day))

end BoundFields
