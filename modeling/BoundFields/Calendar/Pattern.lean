import BoundFields.Text.Blank

/-!
# Date patterns

A pattern is a text in which `%` introduces the parts of a date and time: `%Y-%m-%d` stands for
`2024-06-01`. `Pattern.ofText` splits it into items. A sign without a meaning becomes the item
`unknown`, and a pattern is usable iff it has no such item and is not blank (`isUsable`).
-/

set_option autoImplicit false

namespace BoundFields

/-- The parts of a date and time that are numbers. -/
inductive NumberPart where
  | year | century | yearOfCentury
  | weekYear | weekYearCentury | weekYearOfCentury
  | quarter | month | day
  | weekFromSunday | weekFromMonday | isoWeek
  | weekdayFromSunday | weekdayFromMonday
  | ordinal
  | hour | hourOfHalf | minute | second | nanosecond | timestamp
deriving DecidableEq, Repr

/-- The parts of a date that are names. -/
inductive NamePart where
  | shortMonth | longMonth | shortWeekday | longWeekday
deriving DecidableEq, Repr

/-- The parts of a time of day, with its zone, that are neither. -/
inductive ClockPart where
  | halfOfDay
  /-- A point and any number of digits. -/
  | fraction
  /-- A point and this number of digits. -/
  | pointedFraction (digits : Nat)
  /-- This number of digits. -/
  | bareFraction (digits : Nat)
  | zoneName
  | zoneOffset
  /-- An offset that may lack its minutes, or be the letter Z. -/
  | looseOffset
  /-- The date, the time of day and the offset in one. -/
  | wholeInstant
deriving DecidableEq, Repr

/-- How a number is filled up to its width. -/
inductive Padding where
  | none | zeros | spaces
deriving DecidableEq, Repr

/-- One item of a pattern. -/
inductive PatternItem where
  | literal (text : List Char)
  | blanks (text : List Char)
  | number (part : NumberPart) (padding : Padding)
  | name (part : NamePart)
  | clock (part : ClockPart)
  | unknown
deriving DecidableEq, Repr

/-- What a format asks for, item by item. -/
abbrev Pattern := List PatternItem

namespace Pattern

open PatternItem NumberPart

/-- The number parts that one letter stands for, with their usual padding. -/
def numberOfLetter? : Char → Option (NumberPart × Padding)
  | 'Y' => some (year, .zeros)
  | 'C' => some (century, .zeros)
  | 'y' => some (yearOfCentury, .zeros)
  | 'G' => some (weekYear, .zeros)
  | 'g' => some (weekYearOfCentury, .zeros)
  | 'q' => some (quarter, .none)
  | 'm' => some (month, .zeros)
  | 'd' => some (day, .zeros)
  | 'e' => some (day, .spaces)
  | 'U' => some (weekFromSunday, .zeros)
  | 'W' => some (weekFromMonday, .zeros)
  | 'V' => some (isoWeek, .zeros)
  | 'w' => some (weekdayFromSunday, .none)
  | 'u' => some (weekdayFromMonday, .none)
  | 'j' => some (ordinal, .zeros)
  | 'H' => some (hour, .zeros)
  | 'k' => some (hour, .spaces)
  | 'I' => some (hourOfHalf, .zeros)
  | 'l' => some (hourOfHalf, .spaces)
  | 'M' => some (minute, .zeros)
  | 'S' => some (second, .zeros)
  | 'f' => some (nanosecond, .zeros)
  | 's' => some (timestamp, .none)
  | _ => none

/-- The month, the day and the last digits of the year, with slashes. -/
def monthDayYear : Pattern :=
  [number month .zeros, literal ['/'], number day .zeros, literal ['/'],
    number yearOfCentury .zeros]

/-- The hour and the minute. -/
def hourMinute : Pattern := [number hour .zeros, literal [':'], number minute .zeros]

/-- The hour, the minute and the second. -/
def hourMinuteSecond : Pattern := hourMinute ++ [literal [':'], number second .zeros]

/-- The items that one letter stands for, if it does not stand for a number. -/
def itemsOfLetter : Char → Pattern
  | 'A' => [name .longWeekday]
  | 'a' => [name .shortWeekday]
  | 'B' => [name .longMonth]
  | 'b' | 'h' => [name .shortMonth]
  | 'D' | 'x' => monthDayYear
  | 'F' => [number year .zeros, literal ['-'], number month .zeros, literal ['-'],
      number day .zeros]
  | 'v' => [number day .spaces, literal ['-'], name .shortMonth, literal ['-'],
      number year .zeros]
  | 'R' => hourMinute
  | 'T' | 'X' => hourMinuteSecond
  | 'r' => [number hourOfHalf .zeros, literal [':'], number minute .zeros, literal [':'],
      number second .zeros, blanks [' '], clock .halfOfDay]
  | 'c' => [name .shortWeekday, blanks [' '], name .shortMonth, blanks [' '],
      number day .spaces, blanks [' ']] ++ hourMinuteSecond ++ [blanks [' '], number year .zeros]
  | 'p' | 'P' => [clock .halfOfDay]
  | 'Z' => [clock .zoneName]
  | 'z' => [clock .zoneOffset]
  | '+' => [clock .wholeInstant]
  | 'n' => [blanks ['\n']]
  | 't' => [blanks ['\t']]
  | '%' => [literal ['%']]
  | _ => [unknown]

/-- The items that the text behind a percent sign starts with, and the text behind them. -/
def directive : List Char → Pattern × List Char
  | [] => ([unknown], [])
  | '-' :: cs => withPadding .none cs
  | '0' :: cs => withPadding .zeros cs
  | '_' :: cs => withPadding .spaces cs
  | '#' :: 'z' :: cs => ([clock .looseOffset], cs)
  | '#' :: _ :: cs => ([unknown], cs)
  | '#' :: [] => ([unknown], [])
  | ':' :: ':' :: ':' :: 'z' :: cs => ([clock .zoneOffset], cs)
  | ':' :: ':' :: 'z' :: cs => ([clock .zoneOffset], cs)
  | ':' :: 'z' :: cs => ([clock .zoneOffset], cs)
  | '.' :: 'f' :: cs => ([clock .fraction], cs)
  | '.' :: '3' :: 'f' :: cs => ([clock (.pointedFraction 3)], cs)
  | '.' :: '6' :: 'f' :: cs => ([clock (.pointedFraction 6)], cs)
  | '.' :: '9' :: 'f' :: cs => ([clock (.pointedFraction 9)], cs)
  | '3' :: 'f' :: cs => ([clock (.bareFraction 3)], cs)
  | '6' :: 'f' :: cs => ([clock (.bareFraction 6)], cs)
  | '9' :: 'f' :: cs => ([clock (.bareFraction 9)], cs)
  | c :: cs =>
      match numberOfLetter? c with
      | some (part, padding) => ([number part padding], cs)
      | none => (itemsOfLetter c, cs)
where
  /-- Only numbers can be given another padding. -/
  withPadding (padding : Padding) : List Char → Pattern × List Char
    | [] => ([unknown], [])
    | c :: cs =>
        match numberOfLetter? c with
        | some (part, _) => ([number part padding], cs)
        | none => ([unknown], cs)

/-- The items of the first `fuel` characters or more of a text. -/
def itemsWithin : Nat → List Char → Pattern
  | 0, _ => []
  | _, [] => []
  | fuel + 1, c :: cs =>
      if c = '%' then
        let (items, rest) := directive cs
        items ++ itemsWithin fuel rest
      else if Text.isBlank c then
        blanks ((c :: cs).takeWhile Text.isBlank)
          :: itemsWithin fuel ((c :: cs).dropWhile Text.isBlank)
      else
        let plain := fun d => d ≠ '%' && !Text.isBlank d
        literal ((c :: cs).takeWhile plain) :: itemsWithin fuel ((c :: cs).dropWhile plain)

/-- The items of a pattern text. -/
def ofText (text : String) : Pattern :=
  let cs := text.toList
  itemsWithin cs.length cs

/-- Whether the pattern text can be used for dates: it is not blank and every sign in it has a
meaning. -/
def isUsable (text : String) : Bool :=
  !Text.isBlankString text && (ofText text).all (· ≠ .unknown)

end Pattern

end BoundFields
