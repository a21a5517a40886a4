import BoundFields.Calendar.Pattern
import BoundFields.Calendar.Date

/-!
# Writing dates

A date is written along a pattern of parts that a date has. A pattern that asks for a time of day,
or one with an unknown sign, cannot be written: `Date.write?` is then `none`.
-/

set_option autoImplicit false

namespace BoundFields

/-- A number filled up to its width on the left. -/
def Padding.fill (padding : Padding) (width n : Nat) : List Char :=
  match padding with
  | .none => padded ' ' 0 n
  | .zeros => padded '0' width n
  | .spaces => padded ' ' width n

namespace Date

/-- The names of the months, January first. -/
def monthNames : List String :=
  ["January", "February", "March", "April", "May", "June", "July", "August", "September",
    "October", "November", "December"]

/-- The names of the weekdays, Monday first. -/
def weekdayNames : List String :=
  ["Monday", "Tuesday", "Wednesday", "Thursday", "Friday", "Saturday", "Sunday"]

/-- A year in four digits; outside the years 0 to 9999 it has a sign, which counts for the
width. -/
def writeYear (padding : Padding) (year : Int) : List Char :=
  if 0 ≤ year ∧ year ≤ 9999 then padding.fill 4 year.toNat
  else
    let sign := if year < 0 then '-' else '+'
    let digits := padded ' ' 0 year.natAbs
    match padding with
    | .none => sign :: digits
    | .zeros => sign :: padded '0' 4 year.natAbs
    | .spaces => List.replicate (4 - digits.length) ' ' ++ sign :: digits

/-- The text of a number part of a date; none for the parts of a time of day. -/
def writeNumber? (d : Date) (padding : Padding) : NumberPart → Option (List Char)
  | .year => some (writeYear padding d.year)
  | .century => some (padding.fill 2 (d.year / 100).toNat)
  | .yearOfCentury => some (padding.fill 2 (d.year % 100).toNat)
  | .weekYear => some (writeYear padding d.isoWeek.1)
  | .weekYearCentury => some (padding.fill 2 (d.isoWeek.1 / 100).toNat)
  | .weekYearOfCentury => some (padding.fill 2 (d.isoWeek.1 % 100).toNat)
  | .quarter => some (padded '0' 1 d.quarter)
  | .month => some (padding.fill 2 d.month)
  | .day => some (padding.fill 2 d.day)
  | .weekFromSunday => some (padding.fill 2 (d.weekFrom 6))
  | .weekFromMonday => some (padding.fill 2 (d.weekFrom 0))
  | .isoWeek => some (padding.fill 2 d.isoWeek.2)
  | .weekdayFromSunday => some (padded '0' 1 ((d.weekday + 1) % 7))
  | .weekdayFromMonday => some (padded '0' 1 (d.weekday + 1))
  | .ordinal => some (padding.fill 3 d.ordinal)
  | .hour | .hourOfHalf | .minute | .second | .nanosecond | .timestamp => none

/-- The text of a name part of a date. -/
def writeName (d : Date) : NamePart → List Char
  | .longMonth => (monthNames[d.month - 1]?.getD "").toList
  | .shortMonth => (monthNames[d.month - 1]?.getD "").toList.take 3
  | .longWeekday => (weekdayNames[d.weekday]?.getD "").toList
  | .shortWeekday => (weekdayNames[d.weekday]?.getD "").toList.take 3

/-- The text of one item of a pattern. -/
def writeItem? (d : Date) : PatternItem → Option (List Char)
  | .literal text | .blanks text => some text
  | .number part padding => d.writeNumber? padding part
  | .name part => some (d.writeName part)
  | .clock _ | .unknown => none

/-- The text of a date in a given format, if a date alone can be written in it. -/
def write? (format : String) (d : Date) : Option String :=
  ((Pattern.ofText format).mapM d.writeItem?).map fun parts => String.ofList parts.flatten

end Date

end BoundFields
