import BoundFields.Proofs.Metadata.Access

/-!
# Changes on their way

Of the changes of one document that are on their way, only the newest tells what the document holds
now. A store settles on a queue of changes if the newest change of every document in the queue
carries what the store holds (`Store.Settles`); writes keep this up, as each of them leaves a change
behind (`Store.settles_replace`).
-/

set_option autoImplicit false

namespace BoundFields

/-! ## The newest change -/

/-- The newest change of a document in a queue. -/
def newest? (queue : List Change) (file : FileRef) : Option Change :=
  (queue.filter (·.file = file)).getLast?

theorem newest?_append (old new : List Change) (file : FileRef) :
    newest? (old ++ new) file = (newest? new file).or (newest? old file) := by
  unfold newest?
  rw [List.filter_append, List.getLast?_append]

theorem newest?_singleton (change : Change) (file : FileRef) :
    newest? [change] file = if change.file = file then some change else none := by
  unfold newest?
  by_cases h : change.file = file
  · rw [if_pos h, List.filter_cons_of_pos (by simpa using h)]
    rfl
  · rw [if_neg h, List.filter_cons_of_neg (by simpa using h)]
    rfl

theorem newest?_concat (queue : List Change) (change : Change) (file : FileRef) :
    newest? (queue ++ [change]) file =
      if change.file = file then some change else newest? queue file := by
  rw [newest?_append, newest?_singleton]
  split <;> rfl

theorem newest?_cons (change : Change) (queue : List Change) (file : FileRef) :
    newest? (change :: queue) file =
      (newest? queue file).or (if change.file = file then some change else none) := by
  rw [← List.singleton_append, newest?_append, newest?_singleton]

theorem newest?_eq_none_iff {queue : List Change} {file : FileRef} :
    newest? queue file = none ↔ ∀ c ∈ queue, c.file ≠ file := by
  unfold newest?
  rw [List.getLast?_eq_none_iff, List.filter_eq_nil_iff]
  constructor
  · intro h c hc
    simpa using h c hc
  · intro h c hc
    simpa using h c hc

/-! ## Values -/

/-- The value of a field after a change of its document. -/
def Change.valueOr (change : Change) (t : Target) (default : Value) : Value :=
  (change.snapshot.read? t.path).getD default

theorem Change.valueOr_of_read? {root v : Value} {t : Target} (h : root.read? t.path = some v)
    (file : FileRef) (default : Value) : (⟨file, root⟩ : Change).valueOr t default = v := by
  unfold valueOr
  rw [h]
  rfl

namespace Store

/-- The value of a field. -/
def valueOr (s : Store) (t : Target) (default : Value) : Value := (s.read? t).getD default

/-- The newest changes in the queue carry what the store holds. -/
def Settles (s : Store) (queue : List Change) : Prop :=
  ∀ file c, newest? queue file = some c → s.snapshot? file = some c.snapshot

theorem settles_nil (s : Store) : s.Settles [] :=
  fun _ _ h => absurd h (by simp [newest?])

/-- A replaced document leaves the change behind that carries it. -/
theorem settles_replace {s : Store} {queue : List Change} (h : s.Settles queue) (file : FileRef)
    (metadata : Value) : (s.replace file metadata).Settles (queue ++ [⟨file, metadata⟩]) := by
  intro other c hc
  rw [newest?_concat] at hc
  rw [snapshot?_replace]
  by_cases heq : file = other
  · rw [if_pos heq] at hc ⊢
    obtain rfl := Option.some.inj hc
    rfl
  · rw [if_neg heq] at hc ⊢
    exact h other c hc

/-- The newest change of a document brings the values that the store has. -/
theorem valueOr_of_settles {s : Store} {queue : List Change} (h : s.Settles queue) {t : Target}
    {c : Change} (hc : newest? queue t.file = some c) (default : Value) :
    c.valueOr t default = s.valueOr t default := by
  unfold Change.valueOr valueOr read?
  rw [h t.file c hc, Option.bind_some]

theorem valueOr_replace (s : Store) (file : FileRef) (root : Value) (t : Target)
    (default : Value) :
    (s.replace file root).valueOr t default =
      if file = t.file then (⟨file, root⟩ : Change).valueOr t default else s.valueOr t default := by
  unfold valueOr Change.valueOr
  rw [read?_replace]
  split <;> rfl

end Store

end BoundFields
