import BoundFields.Text.Pieces
import BoundFields.Number.Reader
import BoundFields.Calendar.Fields

/-!
# Reading dates

A text is read item by item along a pattern; at the end nothing may be left. Blanks in a pattern
stand for any number of blanks, numbers may be preceded by blanks and take no more digits than
their width, and names are read in any case.
-/

set_option autoImplicit false

namespace BoundFields

open Text

/-- What reading one item yields: the fields found so far and the text left. -/
abbrev ReadStep := Fields → List Char → Option (Fields × List Char)

namespace ReadStep

/-- A number of at most `width` digits, at least one, and the text behind it. -/
def number? (width : Nat) (cs : List Char) : Option (Int × List Char) :=
  let digits := (cs.take width).takeWhile Char.isDigit
  let n : Int := valueOfDigits digits
  if digits.isEmpty ∨ Fields.largest64 < n then none else some (n, cs.drop digits.length)

/-- The number of digits of a part, if it has a limit. -/
def width : NumberPart → Option Nat
  | .year | .weekYear => some 4
  | .quarter | .weekdayFromSunday | .weekdayFromMonday => some 1
  | .ordinal => some 3
  | .nanosecond => some 9
  | .timestamp => none
  | _ => some 2

/-- Whether a part may carry a sign, which lifts the limit on its digits. -/
def isSigned : NumberPart → Bool
  | .year | .weekYear => true
  | _ => false

/-- A number of at most the width of its part, behind blanks; a part with a sign takes all digits.
-/
def numberPart (part : NumberPart) : ReadStep := fun f cs =>
  let cs := trimStart cs
  let limit := (width part).getD cs.length
  let read := if isSigned part then
      match cs with
      | '-' :: rest => (number? rest.length rest).map fun (n, rest) => (-n, rest)
      | '+' :: rest => number? rest.length rest
      | cs => number? limit cs
    else number? limit cs
  read.bind fun (n, rest) => (f.setNumber n part).map fun f => (f, rest)

/-- The text behind `word`, read in any case. -/
def dropWord? (word cs : List Char) : Option (List Char) :=
  if foldCase (cs.take word.length) = word then some (cs.drop word.length) else none

/-- The names of the months, cut behind the letters of the short name. -/
def monthNames : List (String × String) :=
  [("jan", "uary"), ("feb", "ruary"), ("mar", "ch"), ("apr", "il"), ("may", ""), ("jun", "e"),
    ("jul", "y"), ("aug", "ust"), ("sep", "tember"), ("oct", "ober"), ("nov", "ember"),
    ("dec", "ember")]

/-- The names of the weekdays, cut behind the letters of the short name. -/
def weekdayNames : List (String × String) :=
  [("mon", "day"), ("tue", "sday"), ("wed", "nesday"), ("thu", "rsday"), ("fri", "day"),
    ("sat", "urday"), ("sun", "day")]

/-- The position of the name that the text starts with; where `long` names are allowed, the rest
of the name is taken too if it is there. -/
def name? (long : Bool) (names : List (String × String)) (cs : List Char) :
    Option (Nat × List Char) :=
  names.zipIdx.findSome? fun ((short, rest), i) =>
    (dropWord? short.toList cs).map fun left =>
      (i, if long then (dropWord? rest.toList left).getD left else left)

/-- The name of a month or of a weekday, in any case. -/
def namePart (part : NamePart) : ReadStep := fun f cs =>
  let month (long : Bool) := (name? long monthNames cs).bind fun (i, rest) =>
    (f.setMonth (i + 1)).map fun f => (f, rest)
  let weekday (long : Bool) := (name? long weekdayNames cs).bind fun (i, rest) =>
    (f.setWeekday i).map fun f => (f, rest)
  match part with
  | .shortMonth => month false
  | .longMonth => month true
  | .shortWeekday => weekday false
  | .longWeekday => weekday true

/-- A fraction of a second of exactly this many digits. -/
def fixedFraction (digits : Nat) : ReadStep := fun f cs =>
  let digitChars := (cs.take digits).takeWhile Char.isDigit
  if digitChars.length < digits then none
  else (f.setNanosecond (valueOfDigits digitChars * tenTo (9 - digits) : Nat)).map fun f =>
    (f, cs.drop digits)

/-- A fraction of a second; digits behind the ninth are passed over. -/
def anyFraction : ReadStep := fun f cs =>
  let digits := (cs.take 9).takeWhile Char.isDigit
  if digits.isEmpty then none
  else
    let n := valueOfDigits digits * tenTo (9 - digits.length)
    (f.setNanosecond n).map fun f => (f, cs.dropWhile Char.isDigit)

/-- A step for what may follow a point; without a point nothing is read. -/
def behindPoint (step : ReadStep) : ReadStep := fun f cs =>
  match cs with
  | '.' :: rest => step f rest
  | cs => some (f, cs)

/-- An offset from universal time: a sign, two digits of hours and two of minutes, with colons or
blanks in between. -/
def offset (loose : Bool) : ReadStep := fun f cs =>
  let signed : Option (Bool × List Char) := match cs with
    | '+' :: rest => some (false, rest)
    | '-' :: rest | '−' :: rest => some (true, rest)
    | _ => none
  let finish (negative : Bool) (minutes : Int) (rest : List Char) :=
    (f.setOffset (if negative then -60 * minutes else 60 * minutes)).map fun f => (f, rest)
  signed.bind fun (negative, cs) =>
    match cs with
    | h :: h' :: rest =>
        if h.isDigit && h'.isDigit then
          let hours : Int := valueOfDigits [h, h']
          -- One character alone is not enough for minutes and too much to be left over.
          match rest.dropWhile (fun c => c = ':' || isBlank c) with
          | m :: m' :: rest =>
              if m.isDigit && m'.isDigit && m < '6' then
                finish negative (60 * hours + valueOfDigits [m, m']) rest
              else none
          | [] => if loose then finish negative (60 * hours) [] else none
          | [_] => none
        else none
    | _ => none

/-- An offset, or the letter Z for none. -/
def offsetOrZ (loose : Bool) : ReadStep := fun f cs =>
  match cs with
  | 'Z' :: rest | 'z' :: rest => (f.setOffset 0).map fun f => (f, rest)
  | cs => offset loose f cs

/-- An offset, the letter Z, or the letters UTC. -/
def offsetOrName : ReadStep := fun f cs =>
  match dropWord? ['u', 't', 'c'] cs with
  | some rest => (f.setOffset 0).map fun f => (f, rest)
  | none => offsetOrZ false f cs

/-- The letters AM or PM, in any case. -/
def halfOfDay : ReadStep := fun f cs =>
  match dropWord? ['a', 'm'] cs, dropWord? ['p', 'm'] cs with
  | some rest, _ => (f.setHalf 0).map fun f => (f, rest)
  | _, some rest => (f.setHalf 1).map fun f => (f, rest)
  | _, _ => none

/-- Exactly this text. -/
def literal (text : List Char) : ReadStep := fun f cs =>
  (dropPrefix? text cs).map fun rest => (f, rest)

/-- Any number of blanks. -/
def blanks : ReadStep := fun f cs => some (f, trimStart cs)

/-- One step after the other. -/
def all : List ReadStep → ReadStep
  | [], f, cs => some (f, cs)
  | step :: steps, f, cs => (step f cs).bind fun (f, rest) => all steps f rest

/-- A date, the letter T or a space, a time of day and an offset. -/
def wholeInstant : ReadStep :=
  let mark : ReadStep := fun f cs => match cs with
    | 't' :: rest | 'T' :: rest | ' ' :: rest => some (f, rest)
    | _ => none
  all [numberPart .year, blanks, literal ['-'], numberPart .month, blanks, literal ['-'],
    numberPart .day, mark, numberPart .hour, blanks, literal [':'], numberPart .minute, blanks,
    literal [':'], numberPart .second, behindPoint anyFraction, blanks, offsetOrName]

/-- The part of an instant that is no part of a date. -/
def clockPart : ClockPart → ReadStep
  | .halfOfDay => halfOfDay
  | .fraction => behindPoint anyFraction
  | .pointedFraction digits => behindPoint (fixedFraction digits)
  | .bareFraction digits => fixedFraction digits
  | .zoneName => fun f cs => some (f, cs.dropWhile fun c => !isBlank c)
  | .zoneOffset => fun f cs => offset false f (trimStart cs)
  | .looseOffset => fun f cs => offsetOrZ true f (trimStart cs)
  | .wholeInstant => wholeInstant

/-- The step that reads one item of a pattern. -/
def ofItem : PatternItem → ReadStep
  | .literal text => literal text
  | .blanks _ => blanks
  | .number part _ => numberPart part
  | .name part => namePart part
  | .clock part => clockPart part
  | .unknown => fun _ _ => none

end ReadStep

/-- The fields of a text that a pattern describes from beginning to end. -/
def Pattern.fields? (pattern : Pattern) (cs : List Char) : Option Fields :=
  match ReadStep.all (pattern.map ReadStep.ofItem) {} cs with
  | some (f, []) => some f
  | _ => none

/-- The date that a text stands for in a given format. -/
def Date.read? (format : String) (cs : List Char) : Option Date :=
  ((Pattern.ofText format).fields? cs).bind Fields.date?

end BoundFields
