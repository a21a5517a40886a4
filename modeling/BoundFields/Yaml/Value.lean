import BoundFields.Number.Rounding

/-!
# Metadata values

Metadata is null, a truth value, a number, a text, a sequence, a mapping, or one of these under a
tag. Mappings keep their order, though two mappings with the same entries in another order are the
same value (`Value.same`); an integer is never the same as a number with a fraction part.
-/

set_option autoImplicit false

namespace BoundFields

/-- A number as metadata holds it. -/
inductive Number where
  | integer (n : Int)
  | float (d : Double)
deriving DecidableEq, Repr, Inhabited

namespace Number

/-- Whether two numbers are the same metadata; not being a number is one value. -/
def same : Number → Number → Bool
  | .integer m, .integer n => m == n
  | .float x, .float y => (x.isNaN && y.isNaN) || x.same y
  | _, _ => false

/-- The number as a double. -/
def toDouble : Number → Double
  | .integer n => Double.ofInt n
  | .float d => d

end Number

/-- A metadata value. A tag is held without its exclamation mark. -/
inductive Value where
  | null
  | bool (b : Bool)
  | number (n : Number)
  | string (s : String)
  | sequence (items : List Value)
  | mapping (entries : List (Value × Value))
  | tagged (tag : String) (value : Value)
deriving Inhabited, Repr

namespace Value

mutual

/-- Whether two values are the very same, order of entries included. -/
def decEq : (a b : Value) → Decidable (a = b)
  | .null, .null => isTrue rfl
  | .bool a, .bool b =>
      if h : a = b then isTrue (h ▸ rfl) else isFalse fun e => h (Value.bool.inj e)
  | .number a, .number b =>
      if h : a = b then isTrue (h ▸ rfl) else isFalse fun e => h (Value.number.inj e)
  | .string a, .string b =>
      if h : a = b then isTrue (h ▸ rfl) else isFalse fun e => h (Value.string.inj e)
  | .sequence xs, .sequence ys =>
      match decEqItems xs ys with
      | isTrue h => isTrue (h ▸ rfl)
      | isFalse h => isFalse fun e => h (Value.sequence.inj e)
  | .mapping xs, .mapping ys =>
      match decEqEntries xs ys with
      | isTrue h => isTrue (h ▸ rfl)
      | isFalse h => isFalse fun e => h (Value.mapping.inj e)
  | .tagged s a, .tagged t b =>
      if h : s = t then
        match decEq a b with
        | isTrue h' => isTrue (h ▸ h' ▸ rfl)
        | isFalse h' => isFalse fun e => h' (Value.tagged.inj e).2
      else isFalse fun e => h (Value.tagged.inj e).1
  | .null, .bool _ | .null, .number _ | .null, .string _ | .null, .sequence _
  | .null, .mapping _ | .null, .tagged _ _ => isFalse nofun
  | .bool _, .null | .bool _, .number _ | .bool _, .string _ | .bool _, .sequence _
  | .bool _, .mapping _ | .bool _, .tagged _ _ => isFalse nofun
  | .number _, .null | .number _, .bool _ | .number _, .string _ | .number _, .sequence _
  | .number _, .mapping _ | .number _, .tagged _ _ => isFalse nofun
  | .string _, .null | .string _, .bool _ | .string _, .number _ | .string _, .sequence _
  | .string _, .mapping _ | .string _, .tagged _ _ => isFalse nofun
  | .sequence _, .null | .sequence _, .bool _ | .sequence _, .number _ | .sequence _, .string _
  | .sequence _, .mapping _ | .sequence _, .tagged _ _ => isFalse nofun
  | .mapping _, .null | .mapping _, .bool _ | .mapping _, .number _ | .mapping _, .string _
  | .mapping _, .sequence _ | .mapping _, .tagged _ _ => isFalse nofun
  | .tagged _ _, .null | .tagged _ _, .bool _ | .tagged _ _, .number _ | .tagged _ _, .string _
  | .tagged _ _, .sequence _ | .tagged _ _, .mapping _ => isFalse nofun

/-- Whether two lists of values are the same. -/
def decEqItems : (xs ys : List Value) → Decidable (xs = ys)
  | [], [] => isTrue rfl
  | [], _ :: _ | _ :: _, [] => isFalse nofun
  | x :: xs, y :: ys =>
      match decEq x y, decEqItems xs ys with
      | isTrue h, isTrue h' => isTrue (h ▸ h' ▸ rfl)
      | isFalse h, _ => isFalse fun e => h (List.cons.inj e).1
      | _, isFalse h => isFalse fun e => h (List.cons.inj e).2

/-- Whether two lists of entries are the same. -/
def decEqEntries : (xs ys : List (Value × Value)) → Decidable (xs = ys)
  | [], [] => isTrue rfl
  | [], _ :: _ | _ :: _, [] => isFalse nofun
  | (k, v) :: xs, (l, w) :: ys =>
      match decEq k l, decEq v w, decEqEntries xs ys with
      | isTrue h, isTrue h', isTrue h'' => isTrue (h ▸ h' ▸ h'' ▸ rfl)
      | isFalse h, _, _ => isFalse fun e => h (Prod.mk.inj (List.cons.inj e).1).1
      | _, isFalse h, _ => isFalse fun e => h (Prod.mk.inj (List.cons.inj e).1).2
      | _, _, isFalse h => isFalse fun e => h (List.cons.inj e).2

end

instance : DecidableEq Value := decEq

mutual

/-- Whether two values are the same metadata. The order of the entries of a mapping does not
matter, the two zeros are the same number, and so are all that are not numbers. -/
def same : Value → Value → Bool
  | .null, .null => true
  | .bool a, .bool b => a == b
  | .number a, .number b => a.same b
  | .string a, .string b => a == b
  | .sequence xs, .sequence ys => sameItems xs ys
  | .mapping xs, .mapping ys => xs.length == ys.length && entriesAmong xs ys
  | .tagged s a, .tagged t b => s == t && same a b
  | _, _ => false

/-- Item by item the same. -/
def sameItems : List Value → List Value → Bool
  | [], [] => true
  | x :: xs, y :: ys => same x y && sameItems xs ys
  | _, _ => false

/-- Whether every entry of the first list has a counterpart in the second. -/
def entriesAmong : List (Value × Value) → List (Value × Value) → Bool
  | [], _ => true
  | (k, v) :: xs, ys =>
      (match ys.find? fun (l, _) => same k l with
      | some (_, w) => same v w
      | none => false) && entriesAmong xs ys

end

/-- The value of the entry with the key `key`. -/
def lookup? (key : Value) (entries : List (Value × Value)) : Option Value :=
  (entries.find? fun (k, _) => same key k).map (·.2)

/-- The entries with `value` as the value of `key`: in its place if the key is there, else at the
end. -/
def putEntry (key value : Value) : List (Value × Value) → List (Value × Value)
  | [] => [(key, value)]
  | (k, v) :: more => if same key k then (k, value) :: more else (k, v) :: putEntry key value more

/-- The mapping with these entries; of several with one key the last value counts. -/
def ofEntries (entries : List (Value × Value)) : Value :=
  .mapping (entries.foldl (fun done (k, v) => putEntry k v done) [])

/-- The empty mapping. -/
def empty : Value := .mapping []

/-- The text of a value that is one. -/
def text? : Value → Option String
  | .string s => some s
  | _ => none

end Value

end BoundFields
