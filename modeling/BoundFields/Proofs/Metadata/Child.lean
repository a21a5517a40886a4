import BoundFields.Metadata.Access

/-!
# One segment of a path

A path leads down one segment after the other, and so does a write along it: at each segment it
either gets stuck, at a sequence that the segment is no index of (`Value.Refuses`), or puts another
part where the segment leads (`Value.withChild`). `put_of_refuses` and `put_of_not_refuses` say this
once for all values. The laws of reading and writing a part are stated here for one segment; what
holds of a whole path is an induction over its segments.
-/

set_option autoImplicit false

namespace BoundFields.Value

/-! ## Entries of a mapping -/

theorem lookup?_putEntry {key : Value} (hself : same key key = true) (value : Value)
    (entries : List (Value × Value)) :
    lookup? key (putEntry key value entries) = some value := by
  unfold lookup?
  induction entries with
  | nil => simp [putEntry, hself]
  | cons entry more ih =>
    obtain ⟨k, v⟩ := entry
    cases hk : same key k with
    | true => simp [putEntry, hk]
    | false => simpa [putEntry, hk] using ih

/-- Putting back what is read under a key changes nothing. -/
theorem putEntry_of_lookup? {key value : Value} {entries : List (Value × Value)}
    (h : lookup? key entries = some value) : putEntry key value entries = entries := by
  unfold lookup? at h
  induction entries with
  | nil => simp at h
  | cons entry more ih =>
    obtain ⟨k, v⟩ := entry
    cases hk : same key k with
    | true =>
      simp only [List.find?_cons, hk, Option.map_some, Option.some.injEq] at h
      simp [putEntry, hk, h]
    | false =>
      simp only [List.find?_cons, hk] at h
      simp [putEntry, hk, ih h]

/-- Of two values put under one key the second one stays. -/
theorem putEntry_putEntry {key : Value} (hself : same key key = true) (first second : Value)
    (entries : List (Value × Value)) :
    putEntry key second (putEntry key first entries) = putEntry key second entries := by
  induction entries with
  | nil => simp [putEntry, hself]
  | cons entry more ih =>
    obtain ⟨k, v⟩ := entry
    cases hk : same key k with
    | true => simp [putEntry, hk]
    | false => simp [putEntry, hk, ih]

theorem same_string (s : String) : same (.string s) (.string s) = true := by
  simp [same]

/-- A key that is the same as a text is that text. -/
theorem eq_of_same_string {s : String} {key : Value} (h : same (.string s) key = true) :
    key = .string s := by
  cases key with
  | string t =>
    simp only [same, beq_iff_eq] at h
    rw [h]
  | null | bool | number | sequence | mapping | tagged => simp [same] at h

/-- What is put under a key changes nothing under another one. -/
theorem lookup?_putEntry_of_ne {s other : String} (hne : s ≠ other) (value : Value)
    (entries : List (Value × Value)) :
    lookup? (.string other) (putEntry (.string s) value entries) =
      lookup? (.string other) entries := by
  unfold lookup?
  induction entries with
  | nil => simp [putEntry, same, Ne.symm hne]
  | cons entry more ih =>
    obtain ⟨k, v⟩ := entry
    cases hk : same (.string s) k with
    | true =>
      obtain rfl := eq_of_same_string hk
      simp [putEntry, same, Ne.symm hne]
    | false =>
      simp only [putEntry, hk, Bool.false_eq_true, if_false, List.find?_cons]
      split
      · rfl
      · exact ih

/-- The keys stay as they are, and a key that was not there comes last. -/
theorem map_fst_putEntry (s : String) (value : Value) (entries : List (Value × Value)) :
    (putEntry (.string s) value entries).map (·.1) =
      if .string s ∈ entries.map (·.1) then entries.map (·.1)
      else entries.map (·.1) ++ [.string s] := by
  induction entries with
  | nil => rfl
  | cons entry more ih =>
    obtain ⟨k, v⟩ := entry
    cases hk : same (.string s) k with
    | true =>
      obtain rfl := eq_of_same_string hk
      simp [putEntry, same_string]
    | false =>
      have hne : .string s ≠ k := by
        rintro rfl
        exact absurd (same_string s) (by rw [hk]; decide)
      simp only [putEntry, hk, Bool.false_eq_true, if_false, List.map_cons, ih, List.mem_cons, hne,
        false_or]
      split <;> simp

/-! ## Parts -/

/-- A sequence has no place for a segment that is no index of it. -/
def Refuses (v : Value) (segment : String) : Prop :=
  ∃ items, v = .sequence items ∧ ∀ i, readIndex? segment.toList = some i → items.length ≤ i

/-- The value with another part where a segment leads. A value without parts becomes a mapping. -/
def withChild (v : Value) (segment : String) (child : Value) : Value :=
  match v with
  | .sequence items =>
      match readIndex? segment.toList with
      | some i => .sequence (items.set i child)
      | none => .sequence items
  | .mapping entries => .mapping (putEntry (.string segment) child entries)
  | _ => .mapping [(.string segment, child)]

/-- Only a sequence refuses, and it refuses every segment but its indices. -/
theorem refuses_sequence_iff {items : List Value} {segment : String} :
    (Value.sequence items).Refuses segment ↔ (Value.sequence items).child? segment = none := by
  simp only [child?, Option.bind_eq_none_iff, List.getElem?_eq_none_iff]
  constructor
  · rintro ⟨others, heq, hbound⟩
    rw [Value.sequence.inj heq]
    exact hbound
  · intro hbound
    exact ⟨items, rfl, hbound⟩

theorem not_refuses_of_child? {v child : Value} {segment : String}
    (h : v.child? segment = some child) : ¬ v.Refuses segment := by
  rintro ⟨items, rfl, hbound⟩
  have hnone := refuses_sequence_iff.1 ⟨items, rfl, hbound⟩
  rw [h] at hnone
  cases hnone

/-- A sequence that does not refuse a segment has an item there. -/
theorem exists_index_of_not_refuses {items : List Value} {segment : String}
    (h : ¬ (Value.sequence items).Refuses segment) :
    ∃ i, ∃ hlt : i < items.length, readIndex? segment.toList = some i ∧
      (Value.sequence items).child? segment = some items[i] := by
  rw [refuses_sequence_iff, ← ne_eq, Option.ne_none_iff_exists'] at h
  obtain ⟨child, hchild⟩ := h
  obtain ⟨i, hi, hitem⟩ := Option.bind_eq_some_iff.1 hchild
  obtain ⟨hlt, hat⟩ := List.getElem?_eq_some_iff.1 hitem
  exact ⟨i, hlt, hi, hat ▸ hchild⟩

section Laws

variable {root : Value} {segment : String}

/-- The part that was put is the part that is read. -/
theorem child?_withChild (h : ¬ root.Refuses segment) (child : Value) :
    (root.withChild segment child).child? segment = some child := by
  cases root with
  | sequence items =>
    obtain ⟨i, hlt, hi, -⟩ := exists_index_of_not_refuses h
    simp only [withChild, hi, child?, Option.bind_some, List.getElem?_set_self hlt]
  | mapping entries => exact lookup?_putEntry (same_string segment) child entries
  | null | bool | number | string | tagged =>
    exact lookup?_putEntry (same_string segment) child []

/-- Where another segment leads nothing changes. -/
theorem child?_withChild_of_ne {other : String} (hne : segment ≠ other)
    (hindex : ∀ items i, root = .sequence items →
      readIndex? segment.toList = some i → readIndex? other.toList ≠ some i) (child : Value) :
    (root.withChild segment child).child? other = root.child? other := by
  cases root with
  | sequence items =>
    simp only [withChild]
    split
    · next i hi =>
      simp only [child?]
      cases hother : readIndex? other.toList with
      | none => rfl
      | some j =>
        have hij : i ≠ j := by
          rintro rfl
          exact hindex items i rfl hi hother
        rw [Option.bind_some, Option.bind_some, List.getElem?_set_ne hij]
    · rfl
  | mapping entries => exact lookup?_putEntry_of_ne hne child entries
  | null | bool | number | string | tagged => exact lookup?_putEntry_of_ne hne child []

/-- Putting back the part that is there changes nothing. -/
theorem withChild_of_child? {child : Value} (h : root.child? segment = some child) :
    root.withChild segment child = root := by
  cases root with
  | sequence items =>
    obtain ⟨i, hi, hitem⟩ := Option.bind_eq_some_iff.1 h
    obtain ⟨hlt, rfl⟩ := List.getElem?_eq_some_iff.1 hitem
    simp only [withChild, hi, List.set_getElem_self hlt]
  | mapping entries => exact congrArg Value.mapping (putEntry_of_lookup? h)
  | null | bool | number | string | tagged => cases h

/-- Of two parts put in one place the second one stays. -/
theorem withChild_withChild (first second : Value) :
    (root.withChild segment first).withChild segment second = root.withChild segment second := by
  have hone (entries : List (Value × Value)) :=
    congrArg Value.mapping (putEntry_putEntry (same_string segment) first second entries)
  cases root with
  | sequence items =>
    cases hindex : readIndex? segment.toList with
    | some i => simp only [withChild, hindex, List.set_set]
    | none => simp only [withChild, hindex]
  | mapping entries => exact hone entries
  | null | bool | number | string | tagged => exact hone []

/-- A value refuses the same segments whatever its parts are. -/
theorem not_refuses_withChild (h : ¬ root.Refuses segment) (child : Value) :
    ¬ (root.withChild segment child).Refuses segment :=
  not_refuses_of_child? (child?_withChild h child)

/-! ## Writing, one segment at a time -/

/-- Where a segment is refused, a write gets stuck and changes nothing. -/
theorem put_of_refuses (h : root.Refuses segment) (new : Value) (more : List String) :
    put new (segment :: more) root = (root, some segment) := by
  obtain ⟨items, rfl, -⟩ := id h
  have hnone := refuses_sequence_iff.1 h
  simp only [child?] at hnone
  have hmap : ((readIndex? segment.toList).bind fun i => items[i]?.map (i, ·)) = none := by
    rw [Option.bind_eq_none_iff] at hnone ⊢
    intro i hi
    rw [hnone i hi, Option.map_none]
  simp only [put, hmap]

/-- Elsewhere a write goes on in the part that the segment leads to, where a missing part counts as
null, and puts back what becomes of it. -/
theorem put_of_not_refuses (h : ¬ root.Refuses segment) (new : Value) (more : List String) :
    put new (segment :: more) root =
      (root.withChild segment (put new more ((root.child? segment).getD .null)).1,
        (put new more ((root.child? segment).getD .null)).2) := by
  cases root with
  | sequence items =>
    obtain ⟨i, hlt, hi, hchild⟩ := exists_index_of_not_refuses h
    have hmap : ((readIndex? segment.toList).bind fun i => items[i]?.map (i, ·)) =
        some (i, items[i]) := by
      rw [hi, Option.bind_some, List.getElem?_eq_getElem hlt, Option.map_some]
    rw [hchild, Option.getD_some]
    simp only [put, hmap]
    simp only [withChild, hi]
  | mapping entries => rfl
  | null | bool | number | string | tagged => rfl

end Laws

end BoundFields.Value
