/-!
# Values by key

A `Keyed` holds one value for each of finitely many keys, in the order in which the keys came. It
is read through `get?`; putting a value under a key changes what is read there and nowhere else.
-/

set_option autoImplicit false

namespace BoundFields

/-- Values by key. -/
structure Keyed (κ ν : Type) where
  entries : List (κ × ν) := []
deriving DecidableEq, Repr

namespace Keyed

variable {κ ν : Type} [DecidableEq κ]

/-- The value in the first entry with the key. -/
def find? (key : κ) : List (κ × ν) → Option ν
  | [] => none
  | (k, v) :: more => if k = key then some v else find? key more

/-- The entries with `value` under `key`: in its place if the key is there, else at the end. -/
def putEntry (key : κ) (value : ν) : List (κ × ν) → List (κ × ν)
  | [] => [(key, value)]
  | (k, v) :: more => if k = key then (k, value) :: more else (k, v) :: putEntry key value more

/-- The entries but those with the key. -/
def eraseEntry (key : κ) : List (κ × ν) → List (κ × ν)
  | [] => []
  | (k, v) :: more => if k = key then eraseEntry key more else (k, v) :: eraseEntry key more

/-- The value under a key. -/
def get? (m : Keyed κ ν) (key : κ) : Option ν := find? key m.entries

/-- The same with `value` under `key`. -/
def put (m : Keyed κ ν) (key : κ) (value : ν) : Keyed κ ν := ⟨putEntry key value m.entries⟩

/-- The same without a value under `key`. -/
def erase (m : Keyed κ ν) (key : κ) : Keyed κ ν := ⟨eraseEntry key m.entries⟩

/-- Whether there is a value under a key. -/
def contains (m : Keyed κ ν) (key : κ) : Bool := (m.get? key).isSome

/-- The keys, in the order in which they came. -/
def keys (m : Keyed κ ν) : List κ := m.entries.map (·.1)

/-- The values by key of a list of pairs; of several with one key the last counts. -/
def ofList (pairs : List (κ × ν)) : Keyed κ ν :=
  pairs.foldl (fun m (key, value) => m.put key value) {}

theorem find?_putEntry (key other : κ) (value : ν) (entries : List (κ × ν)) :
    find? other (putEntry key value entries) =
      if key = other then some value else find? other entries := by
  induction entries with
  | nil => simp [putEntry, find?]
  | cons entry more ih =>
    obtain ⟨k, v⟩ := entry
    by_cases hk : k = key
    · subst hk
      by_cases ho : k = other <;> simp [putEntry, find?, ho]
    · by_cases ho : k = other
      · subst ho
        simp [putEntry, find?, hk, Ne.symm hk]
      · simp [putEntry, find?, hk, ho, ih]

theorem find?_eraseEntry (key other : κ) (entries : List (κ × ν)) :
    find? other (eraseEntry key entries) = if key = other then none else find? other entries := by
  induction entries with
  | nil => simp [eraseEntry, find?]
  | cons entry more ih =>
    obtain ⟨k, v⟩ := entry
    by_cases hk : k = key
    · subst hk
      by_cases ho : k = other
      · subst ho
        simpa [eraseEntry] using ih
      · simp [eraseEntry, find?, ih, ho]
    · by_cases ho : k = other
      · subst ho
        simp [eraseEntry, find?, hk, Ne.symm hk]
      · simp [eraseEntry, find?, hk, ho, ih]

/-- What is put under a key is read there, and all other keys keep their values. -/
@[simp] theorem get?_put (m : Keyed κ ν) (key other : κ) (value : ν) :
    (m.put key value).get? other = if key = other then some value else m.get? other :=
  find?_putEntry key other value m.entries

/-- Nothing is read under a key that was erased. -/
@[simp] theorem get?_erase (m : Keyed κ ν) (key other : κ) :
    (m.erase key).get? other = if key = other then none else m.get? other :=
  find?_eraseEntry key other m.entries

@[simp] theorem get?_empty (key : κ) : ({} : Keyed κ ν).get? key = none := rfl

end Keyed

end BoundFields
