import BoundFields.Metadata.Store
import BoundFields.Proofs.Keyed
import BoundFields.Proofs.Metadata.Child

/-!
# Writing and reading back

What is written along a path is read back along it (`follow?_put`), what other paths lead to is the
same as before (`follow?_put_of_diverges`), and a write that gets stuck leaves the value as it was
(`put_stuck`). For the store this makes a write one of two things: the document replaced by one that
has the value at the target, or no change to any document at all (`Store.write_cases`).
-/

set_option autoImplicit false

namespace BoundFields

namespace Value

/-- A value in which no part can be missing on the way is always written. -/
theorem put_null (new : Value) (segments : List String) : (put new segments .null).2 = none := by
  induction segments with
  | nil => rfl
  | cons segment more ih => simpa [put] using ih

/-- A write that does not get stuck is refused nowhere, not at its first segment either. -/
theorem not_refuses_of_put {new root : Value} {segment : String} {more : List String}
    (h : (put new (segment :: more) root).2 = none) : ¬ root.Refuses segment := by
  intro hrefuses
  rw [put_of_refuses hrefuses] at h
  cases h

/-- What was written is read back. -/
theorem follow?_put {new root : Value} {segments : List String}
    (h : (put new segments root).2 = none) :
    follow? segments (put new segments root).1 = some new := by
  induction segments generalizing root with
  | nil => rfl
  | cons segment more ih =>
    have hplace := not_refuses_of_put h
    rw [put_of_not_refuses hplace] at h ⊢
    rw [follow?, child?_withChild hplace, Option.bind_some]
    exact ih h

/-- Two paths part before either ends: where they have led to so far, their next segments are two
keys, or two segments that do not stand for the same index. -/
inductive Diverges : Value → List String → List String → Prop where
  | here {root : Value} {segment other : String} (more rest : List String)
      (differ : segment ≠ other) (indices : ∀ items i, root = .sequence items →
        readIndex? segment.toList = some i → readIndex? other.toList ≠ some i) :
      Diverges root (segment :: more) (other :: rest)
  | later {root : Value} (segment : String) {more rest : List String}
      (behind : Diverges ((root.child? segment).getD .null) more rest) :
      Diverges root (segment :: more) (segment :: rest)

theorem Diverges.ne_nil {root : Value} {segments other : List String}
    (h : Diverges root segments other) : other ≠ [] := by
  cases h with
  | here | later => exact List.cons_ne_nil _ _

theorem follow?_null {segments : List String} (h : segments ≠ []) :
    follow? segments .null = none := by
  cases segments with
  | nil => exact absurd rfl h
  | cons segment more => rfl

/-- Nothing changes where a path leads that parts from the one written along. -/
theorem follow?_put_of_diverges {new root : Value} {segments other : List String}
    (h : Diverges root segments other) :
    follow? other (put new segments root).1 = follow? other root := by
  induction h with
  | @here root segment next more rest differ indices =>
    by_cases hrefuses : root.Refuses segment
    · rw [put_of_refuses hrefuses]
    · rw [put_of_not_refuses hrefuses, follow?, child?_withChild_of_ne differ indices, ← follow?]
  | @later root segment more rest behind ih =>
    by_cases hrefuses : root.Refuses segment
    · rw [put_of_refuses hrefuses]
    · -- Both paths lead to the same part, which the write has put back changed.
      rw [put_of_not_refuses hrefuses, follow?, child?_withChild hrefuses, Option.bind_some, ih,
        follow?]
      cases root.child? segment with
      | some child => rfl
      | none => exact follow?_null behind.ne_nil

/-- A write that got stuck leaves everything as it was. -/
theorem put_stuck {new root : Value} {segments : List String} {stuck : String}
    (h : (put new segments root).2 = some stuck) : (put new segments root).1 = root := by
  induction segments generalizing root with
  | nil => cases h
  | cons segment more ih =>
    by_cases hrefuses : root.Refuses segment
    · rw [put_of_refuses hrefuses]
    · rw [put_of_not_refuses hrefuses] at h ⊢
      cases hchild : root.child? segment with
      | none =>
        -- A part that is missing starts as null, and nothing gets stuck in there.
        rw [hchild, Option.getD_none, put_null] at h
        cases h
      | some child =>
        rw [hchild, Option.getD_some] at h
        rw [Option.getD_some, ih h, withChild_of_child? hchild]

end Value

namespace Store

/-! ## The store -/

/-- Putting a document in its own place changes nothing. -/
theorem insert_of_snapshot? {s : Store} {file : FileRef} {root : Value}
    (h : s.snapshot? file = some root) : s.insert file root = s := by
  rw [insert, Keyed.put_of_get? h]

/-- What a write does: it replaces the document by one that has the value at the target, or it
fails and changes nothing. -/
theorem write_cases (s : Store) (t : Target) (v : Value) :
    (∃ root, root.read? t.path = some v ∧ s.write t v = (.ok (), s.replace t.file root)) ∨
    ∃ error, s.write t v = (.error error, s) := by
  unfold write
  simp only [Value.writeAt]
  cases hput : Value.put v t.path.segments ((s.snapshot? t.file).getD .null) with
  | mk root stuck =>
    cases stuck with
    | none =>
      have hread := Value.follow?_put (congrArg Prod.snd hput)
      rw [hput] at hread
      exact .inl ⟨root, hread, rfl⟩
    | some segment =>
      -- A document that the store does not know yet is null, where nothing gets stuck.
      have hroot := Value.put_stuck (congrArg Prod.snd hput)
      rw [hput] at hroot
      cases hsnap : s.snapshot? t.file with
      | none =>
        have hnone := Value.put_null v t.path.segments
        rw [hsnap, Option.getD_none] at hput
        rw [hput] at hnone
        exact absurd hnone (by simp)
      | some document =>
        rw [hsnap, Option.getD_some] at hroot
        obtain rfl : root = document := hroot
        exact .inr ⟨.badIndex segment t.path.text, by simp only [insert_of_snapshot? hsnap]⟩

/-- A write that succeeds puts what is left of the document behind `Value.put` in its place. -/
theorem write_eq_ok_iff {s s' : Store} {t : Target} {v : Value} :
    s.write t v = (.ok (), s') ↔
      (Value.put v t.path.segments ((s.snapshot? t.file).getD .null)).2 = none ∧
        s' = s.replace t.file
          (Value.put v t.path.segments ((s.snapshot? t.file).getD .null)).1 := by
  unfold write
  simp only [Value.writeAt]
  cases hput : Value.put v t.path.segments ((s.snapshot? t.file).getD .null) with
  | mk root stuck =>
    cases stuck with
    | none => simp only [Prod.mk.injEq, true_and, eq_comm]
    | some segment => simp only [Prod.mk.injEq, reduceCtorEq, false_and]

theorem snapshot?_replace (s : Store) (file other : FileRef) (metadata : Value) :
    (s.replace file metadata).snapshot? other =
      if file = other then some metadata else s.snapshot? other :=
  Keyed.get?_put s.documents file other metadata

/-- A document that was replaced reads as its new metadata, and the others read as before. -/
theorem read?_replace (s : Store) (file : FileRef) (root : Value) (t : Target) :
    (s.replace file root).read? t = if file = t.file then root.read? t.path else s.read? t := by
  unfold read?
  rw [snapshot?_replace]
  split <;> rfl

end Store

end BoundFields
