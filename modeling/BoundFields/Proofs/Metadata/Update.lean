import BoundFields.Proofs.Metadata.Access

/-!
# Laws of writing along a path

A write that goes through changes one place: what was written is read there, a second write at the
same place makes the first one undone, writing what is there anyway does nothing, and every path
that is apart from the one written along leads to what it led to (`writeAt_isUpdate`). On the way
down, a part of the written value is the part of the old one, written along the rest of the path
(`follow?_put_append`); so the mappings there keep their keys, with at most one more behind them.
-/

set_option autoImplicit false

namespace BoundFields.Value

/-- Of two writes at one place the second one counts. -/
theorem put_put {first root : Value} {segments : List String}
    (h : (put first segments root).2 = none) (second : Value) :
    put second segments (put first segments root).1 = put second segments root := by
  induction segments generalizing root with
  | nil => rfl
  | cons segment more ih =>
    have hplace := not_refuses_of_put h
    rw [put_of_not_refuses hplace] at h ⊢
    -- The second write finds at this segment what the first one has put there.
    rw [put_of_not_refuses (not_refuses_withChild hplace _), child?_withChild hplace,
      Option.getD_some, ih h, withChild_withChild, put_of_not_refuses hplace]

/-- Writing what is there goes through and changes nothing. -/
theorem put_of_follow? {root v : Value} {segments : List String}
    (h : follow? segments root = some v) : put v segments root = (root, none) := by
  induction segments generalizing root with
  | nil =>
    cases h
    rfl
  | cons segment more ih =>
    obtain ⟨child, hchild, hmore⟩ := Option.bind_eq_some_iff.1 h
    rw [put_of_not_refuses (not_refuses_of_child? hchild), hchild, Option.getD_some, ih hmore,
      withChild_of_child? hchild]

/-! ## Paths that are apart -/

/-- Two paths are apart if, at the first place where they differ, both have a segment and the two
do not stand for the same index. -/
inductive Apart : List String → List String → Prop where
  | here {segment other : String} (more rest : List String) (differ : segment ≠ other)
      (indices : ∀ i, readIndex? segment.toList = some i → readIndex? other.toList ≠ some i) :
      Apart (segment :: more) (other :: rest)
  | later (segment : String) {more rest : List String} (behind : Apart more rest) :
      Apart (segment :: more) (segment :: rest)

/-- Paths that are apart part in every value. -/
theorem Apart.diverges {segments other : List String} (h : Apart segments other) (root : Value) :
    Diverges root segments other := by
  induction h generalizing root with
  | here more rest differ indices =>
    exact .here more rest differ fun _ i _ hi => indices i hi
  | later segment behind ih => exact .later segment (ih _)

/-! ## Parts on the way -/

/-- A missing part counts as null, whether it is missed at once or further down. -/
theorem getD_follow?_cons (segment : String) (more : List String) (root : Value) :
    (follow? (segment :: more) root).getD .null =
      (follow? more ((root.child? segment).getD .null)).getD .null := by
  rw [follow?]
  cases root.child? segment with
  | some child => rfl
  | none =>
    cases more with
    | nil => rfl
    | cons next rest => rfl

/-- Any part on the way is written along the rest of the path. -/
theorem follow?_put_append {new root : Value} {front rest : List String}
    (h : (put new (front ++ rest) root).2 = none) :
    follow? front (put new (front ++ rest) root).1 =
      some (put new rest ((follow? front root).getD .null)).1 := by
  induction front generalizing root with
  | nil => rfl
  | cons segment more ih =>
    have hplace := not_refuses_of_put h
    rw [List.cons_append, put_of_not_refuses hplace] at h ⊢
    rw [follow?, child?_withChild hplace, Option.bind_some, ih h, getD_follow?_cons]

/-- A mapping on the way keeps its keys, and gets the next segment as its last one if that was not
among them. -/
theorem map_fst_of_follow?_put {new root : Value} {front rest : List String} {segment : String}
    {entries : List (Value × Value)} (h : (put new (front ++ segment :: rest) root).2 = none)
    (hfront : follow? front root = some (.mapping entries)) :
    ∃ after, follow? front (put new (front ++ segment :: rest) root).1 = some (.mapping after) ∧
      after.map (·.1) = if .string segment ∈ entries.map (·.1) then entries.map (·.1)
        else entries.map (·.1) ++ [.string segment] := by
  rw [follow?_put_append h, hfront, Option.getD_some]
  exact ⟨_, rfl, map_fst_putEntry segment _ entries⟩

/-! ## The laws -/

/-- A write goes through exactly if it does not get stuck. -/
theorem writeAt_eq_ok_iff {root root' v : Value} {path : FieldPath} :
    root.writeAt path v = (.ok (), root') ↔
      (put v path.segments root).2 = none ∧ root' = (put v path.segments root).1 := by
  rw [writeAt]
  rcases put v path.segments root with ⟨after, stuck⟩
  cases stuck with
  | none => simp only [Prod.mk.injEq, true_and, eq_comm]
  | some segment => simp only [Prod.mk.injEq, reduceCtorEq, false_and]

/-- One value is another one with `v` at a path. -/
structure IsUpdate (root root' : Value) (path : FieldPath) (v : Value) : Prop where
  /-- What was written is read back. -/
  reads : root'.read? path = some v
  /-- Another write at the path does the same as if there had been none before. -/
  overwrites : ∀ other, root'.writeAt path other = root.writeAt path other
  /-- Writing what is there changes nothing. -/
  keeps : root.read? path = some v → root' = root
  /-- Paths that are apart lead to what they led to. -/
  frames : ∀ other : FieldPath, Apart path.segments other.segments →
    root'.read? other = root.read? other
  /-- A mapping on the way has its keys in the order they had, and at most one more, the last. -/
  orders : ∀ front segment rest entries, path.segments = front ++ segment :: rest →
    root.read? ⟨front⟩ = some (.mapping entries) →
      ∃ after, root'.read? ⟨front⟩ = some (.mapping after) ∧
        after.map (·.1) = if .string segment ∈ entries.map (·.1) then entries.map (·.1)
          else entries.map (·.1) ++ [.string segment]

/-- A write that goes through is an update of one place. -/
theorem writeAt_isUpdate {root root' v : Value} {path : FieldPath}
    (h : root.writeAt path v = (.ok (), root')) : root.IsUpdate root' path v := by
  obtain ⟨hput, rfl⟩ := writeAt_eq_ok_iff.1 h
  refine ⟨follow?_put hput, ?_, ?_, ?_, ?_⟩
  · intro other
    simp only [writeAt, put_put hput other]
  · intro hread
    rw [put_of_follow? hread]
  · intro other hapart
    exact follow?_put_of_diverges (hapart.diverges root)
  · intro front segment rest entries hpath hfront
    rw [hpath] at hput ⊢
    exact map_fst_of_follow?_put hput hfront

/-- A document with two tags and a count. -/
def taggedDocument (second : Value) : Value :=
  .mapping [(.string "meta", .mapping [(.string "tags", .sequence [.string "a", second])]),
    (.string "count", .number (.integer 3))]

/-- An index may be written with a plus sign and with zeros in front. -/
theorem writeAt_isUpdate_tag :
    (taggedDocument (.string "b")).writeAt ⟨["meta", "tags", "+01"]⟩ .null =
        (.ok (), taggedDocument .null) ∧
      (taggedDocument (.string "b")).IsUpdate (taggedDocument .null)
        ⟨["meta", "tags", "+01"]⟩ .null := by
  have hwrite : (taggedDocument (.string "b")).writeAt ⟨["meta", "tags", "+01"]⟩ .null =
      (.ok (), taggedDocument .null) :=
    writeAt_eq_ok_iff.2 ⟨by decide +kernel, by decide +kernel⟩
  exact ⟨hwrite, writeAt_isUpdate hwrite⟩

end BoundFields.Value
