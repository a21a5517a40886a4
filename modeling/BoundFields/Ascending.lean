/-!
# Ascending lists

A finite set of ordered things is held as the list of its members in strictly ascending order.
`ofList` brings any list into this form; order and repetitions of the list do not matter.
-/

set_option autoImplicit false

namespace BoundFields.Ascending

variable {α : Type} [LT α] [DecidableLT α] [DecidableEq α]

/-- The list with `a` in its place, unless it is there already. -/
def insert (a : α) : List α → List α
  | [] => [a]
  | b :: more =>
      if a = b then b :: more
      else if a < b then a :: b :: more
      else b :: insert a more

/-- The members of a list in ascending order, each once. -/
def ofList (members : List α) : List α := members.foldr insert []

theorem mem_insert {a b : α} {members : List α} :
    b ∈ insert a members ↔ b = a ∨ b ∈ members := by
  induction members with
  | nil => simp [insert]
  | cons c more ih =>
    unfold insert
    split
    · next h => simp [h]
    · split
      · simp
      · simp only [List.mem_cons, ih]
        grind

theorem mem_ofList {a : α} {members : List α} : a ∈ ofList members ↔ a ∈ members := by
  induction members with
  | nil => simp [ofList]
  | cons b more ih =>
    have h : ofList (b :: more) = insert b (ofList more) := rfl
    rw [h, mem_insert, ih, List.mem_cons]

end BoundFields.Ascending
