import BoundFields.Calendar.Reader

/-!
# Times of day

Hours and minutes, read and written with a colon in between.
-/

set_option autoImplicit false

namespace BoundFields

/-- A time of day to the minute. -/
structure TimeOfDay where
  hour : Nat
  minute : Nat
deriving DecidableEq, Repr

namespace TimeOfDay

/-- The time that a text such as `08:30` stands for. -/
def read? (cs : List Char) : Option TimeOfDay := do
  let f ← Pattern.hourMinute.fields? cs
  let half ← f.half
  let hour ← f.hourOfHalf
  let minute ← f.minute
  return ⟨(12 * half + hour).toNat, minute.toNat⟩

/-- Two digits of hours, a colon and two digits of minutes. -/
def write (t : TimeOfDay) : String :=
  String.ofList (padded '0' 2 t.hour ++ ':' :: padded '0' 2 t.minute)

end TimeOfDay

end BoundFields
