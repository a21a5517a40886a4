import BoundFields.Number.Power
import BoundFields.Calendar.Date
import BoundFields.Calendar.Pattern

/-!
# Fields of a date text

Reading a text by a pattern collects the fields that the text gives. A field may be given twice
only with the same value. `Fields.date?` finds the one date that fits: it is determined by the
year, month and day, else by another sufficient set of fields, and has to agree with all the
others.
-/

set_option autoImplicit false

namespace BoundFields

/-- What a text says about a date and a time of day. -/
structure Fields where
  year : Option Int := none
  century : Option Int := none
  yearOfCentury : Option Int := none
  weekYear : Option Int := none
  weekYearCentury : Option Int := none
  weekYearOfCentury : Option Int := none
  quarter : Option Int := none
  month : Option Int := none
  day : Option Int := none
  weekFromSunday : Option Int := none
  weekFromMonday : Option Int := none
  isoWeek : Option Int := none
  /-- 0 for Monday to 6 for Sunday. -/
  weekday : Option Int := none
  ordinal : Option Int := none
  /-- 0 for the half before noon, 1 for the half behind it. -/
  half : Option Int := none
  hourOfHalf : Option Int := none
  minute : Option Int := none
  second : Option Int := none
  nanosecond : Option Int := none
  timestamp : Option Int := none
  offset : Option Int := none
deriving Repr, DecidableEq

namespace Fields

/-- A field with the value `v`, if that lies within the bounds and the field had no other. -/
def agree (old : Option Int) (low high v : Int) : Option (Option Int) :=
  if low ≤ v ∧ v ≤ high ∧ old.all (· = v) then some (some v) else none

/-- The largest integer of 32 bits. -/
def largest32 : Int := twoTo 31 - 1

/-- The largest integer of 64 bits. -/
def largest64 : Int := twoTo 63 - 1

/-- The fields with a year, negative ones included. -/
def setYear (f : Fields) (v : Int) : Option Fields :=
  (agree f.year (-twoTo 31) largest32 v).map fun x => { f with year := x }

/-- The fields with a month, 1 for January. -/
def setMonth (f : Fields) (v : Int) : Option Fields :=
  (agree f.month 1 12 v).map fun x => { f with month := x }

/-- The fields with a weekday, 0 for Monday. -/
def setWeekday (f : Fields) (v : Int) : Option Fields :=
  (agree f.weekday 0 6 v).map fun x => { f with weekday := x }

/-- The fields with a half of the day, 0 for the morning. -/
def setHalf (f : Fields) (v : Int) : Option Fields :=
  (agree f.half 0 1 v).map fun x => { f with half := x }

/-- The fields with an hour of the half day, 0 for twelve. -/
def setHourOfHalf (f : Fields) (v : Int) : Option Fields :=
  (agree f.hourOfHalf 0 11 v).map fun x => { f with hourOfHalf := x }

/-- The fields with a part of a second, in nanoseconds. -/
def setNanosecond (f : Fields) (v : Int) : Option Fields :=
  (agree f.nanosecond 0 999999999 v).map fun x => { f with nanosecond := x }

/-- The fields with an offset, in seconds east of the meridian. -/
def setOffset (f : Fields) (v : Int) : Option Fields :=
  (agree f.offset (-twoTo 31) largest32 v).map fun x => { f with offset := x }

/-- The fields with the value of one more number part. -/
def setNumber (f : Fields) (v : Int) : NumberPart → Option Fields
  | .year => f.setYear v
  | .century => (agree f.century 0 largest32 v).map fun x => { f with century := x }
  | .yearOfCentury => (agree f.yearOfCentury 0 99 v).map fun x => { f with yearOfCentury := x }
  | .weekYear => (agree f.weekYear (-twoTo 31) largest32 v).map fun x => { f with weekYear := x }
  | .weekYearCentury =>
      (agree f.weekYearCentury 0 largest32 v).map fun x => { f with weekYearCentury := x }
  | .weekYearOfCentury =>
      (agree f.weekYearOfCentury 0 99 v).map fun x => { f with weekYearOfCentury := x }
  | .quarter => (agree f.quarter 1 4 v).map fun x => { f with quarter := x }
  | .month => f.setMonth v
  | .day => (agree f.day 1 31 v).map fun x => { f with day := x }
  | .weekFromSunday => (agree f.weekFromSunday 0 53 v).map fun x => { f with weekFromSunday := x }
  | .weekFromMonday => (agree f.weekFromMonday 0 53 v).map fun x => { f with weekFromMonday := x }
  | .isoWeek => (agree f.isoWeek 1 53 v).map fun x => { f with isoWeek := x }
  | .weekdayFromSunday => if v ≤ 6 then f.setWeekday ((v + 6) % 7) else none
  | .weekdayFromMonday => f.setWeekday (v - 1)
  | .ordinal => (agree f.ordinal 1 366 v).map fun x => { f with ordinal := x }
  | .hour => if v ≤ 23 then (f.setHalf (v / 12)).bind (·.setHourOfHalf (v % 12)) else none
  | .hourOfHalf => if 1 ≤ v ∧ v ≤ 12 then f.setHourOfHalf (v % 12) else none
  | .minute => (agree f.minute 0 59 v).map fun x => { f with minute := x }
  | .second => (agree f.second 0 60 v).map fun x => { f with second := x }
  | .nanosecond => f.setNanosecond v
  | .timestamp => (agree f.timestamp 0 largest64 v).map fun x => { f with timestamp := x }

/-- The year that a full year, a century and a year of the century give together: `none` if they
contradict each other or are too few to tell, `some none` if none is given. A year of the century
alone lies between 1970 and 2069. -/
def resolveYear? : Option Int → Option Int → Option Int → Option (Option Int)
  | year, none, none => some year
  | some y, century, rest =>
      if 0 ≤ y ∧ century.all (· = y / 100) ∧ rest.all (· = y % 100) then some (some y) else none
  | none, some century, some rest =>
      let y := century * 100 + rest
      if y ≤ largest32 then some (some y) else none
  | none, none, some rest => some (some (if rest < 70 then 2000 + rest else 1900 + rest))
  | none, some _, none => none

/-- Whether a year agrees with the parts of a year that are given. A year before 0 has no
century. -/
def yearFits (year century yearOfCentury : Option Int) (y : Int) : Bool :=
  year.all (· = y) && century.all (fun c => 0 ≤ y && c == y / 100)
    && yearOfCentury.all (fun r => 0 ≤ y && r == y % 100)

/-- Whether a field is absent or has the value `n`. -/
def allows (field : Option Int) (n : Nat) : Bool := field.all (· = (n : Int))

/-- Whether a date agrees with the given year, month and day. -/
def monthDayFits (f : Fields) (d : Date) : Bool :=
  yearFits f.year f.century f.yearOfCentury d.year
    && allows f.month d.month && allows f.day d.day

/-- Whether a date agrees with the given year of whole weeks, week and weekday. -/
def isoWeekFits (f : Fields) (d : Date) : Bool :=
  yearFits f.weekYear f.weekYearCentury f.weekYearOfCentury d.isoWeek.1
    && allows f.isoWeek d.isoWeek.2 && allows f.weekday d.weekday

/-- Whether a date agrees with the given day of the year and weeks of the year. -/
def ordinalFits (f : Fields) (d : Date) : Bool :=
  allows f.ordinal d.ordinal && allows f.weekFromSunday (d.weekFrom 6)
    && allows f.weekFromMonday (d.weekFrom 0)

/-- The date that the first sufficient set of fields determines. -/
def candidate? (f : Fields) (year weekYear : Option Int) : Option Date :=
  match year, f.month, f.day, f.ordinal, f.weekFromSunday, f.weekFromMonday, f.weekday with
  | some y, some m, some d, _, _, _, _ => Date.ofMonthDay? y m.toNat d.toNat
  | some y, _, _, some n, _, _, _ => Date.ofOrdinal? y n.toNat
  | some y, _, _, _, some w, _, some wd => Date.ofWeek? 6 y w.toNat wd.toNat
  | some y, _, _, _, _, some w, some wd => Date.ofWeek? 0 y w.toNat wd.toNat
  | _, _, _, _, _, _, some wd =>
      match weekYear, f.isoWeek with
      | some y, some w => Date.ofIsoWeek? y w.toNat wd.toNat
      | _, _ => none
  | _, _, _, _, _, _, none => none

/-- The date that the fields determine, if they determine one and agree with each other. -/
def date? (f : Fields) : Option Date := do
  let year ← resolveYear? f.year f.century f.yearOfCentury
  let weekYear ← resolveYear? f.weekYear f.weekYearCentury f.weekYearOfCentury
  -- Only now are the remaining fields compared, whatever set determined the date.
  let d ← f.candidate? year weekYear
  if f.monthDayFits d && f.isoWeekFits d && f.ordinalFits d && allows f.quarter d.quarter then
    some d
  else none

end Fields

end BoundFields
