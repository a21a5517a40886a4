import BoundFields.Metadata.Access
import BoundFields.Proofs.Number.Whole

/-!
# Mappings whose keys differ

A mapping has each key once, however deep it lies in the metadata (`Value.HasDistinctKeys`). Of such
metadata every value is the same as itself (`Value.same_self`): the counterpart of an entry is
looked up by its key, and with two entries of one key it would be the first of them.
-/

set_option autoImplicit false

namespace BoundFields

/-- As metadata, a number is the same as itself even if it is none. -/
theorem Number.same_self (n : Number) : n.same n = true := by
  cases n with
  | integer n => exact beq_self_eq_true n
  | float d =>
    cases hnan : d.isNaN with
    | true => simp [same, hnan]
    | false => simp [same, Double.same_self hnan]

namespace Value

/-- No mapping within the value has two entries of one key. -/
inductive HasDistinctKeys : Value → Prop where
  | null : HasDistinctKeys .null
  | bool (b : Bool) : HasDistinctKeys (.bool b)
  | number (n : Number) : HasDistinctKeys (.number n)
  | string (s : String) : HasDistinctKeys (.string s)
  | sequence {items : List Value} (parts : ∀ v ∈ items, HasDistinctKeys v) :
      HasDistinctKeys (.sequence items)
  | mapping {entries : List (Value × Value)} (keys : ∀ p ∈ entries, HasDistinctKeys p.1)
      (values : ∀ p ∈ entries, HasDistinctKeys p.2)
      (distinct : entries.Pairwise fun p q => same q.1 p.1 = false) :
      HasDistinctKeys (.mapping entries)
  | tagged (tag : String) {v : Value} (untagged : HasDistinctKeys v) :
      HasDistinctKeys (.tagged tag v)

/-! ## What is the same as itself -/

theorem sameItems_self {items : List Value} (h : ∀ v ∈ items, same v v = true) :
    sameItems items items = true := by
  induction items with
  | nil => rfl
  | cons v more ih =>
    rw [List.forall_mem_cons] at h
    rw [sameItems, h.1, ih h.2, Bool.and_self]

/-- The first entry with the key of an entry is that entry, if the keys differ. -/
theorem find?_of_distinct {entries : List (Value × Value)}
    (distinct : entries.Pairwise fun p q => same q.1 p.1 = false) {p : Value × Value}
    (hmem : p ∈ entries) (hself : same p.1 p.1 = true) :
    entries.find? (fun (l, _) => same p.1 l) = some p := by
  induction entries with
  | nil => cases hmem
  | cons first more ih =>
    obtain ⟨hfirst, hmore⟩ := List.pairwise_cons.1 distinct
    rcases List.mem_cons.1 hmem with rfl | hmem
    · exact List.find?_cons_of_pos hself
    · rw [List.find?_cons_of_neg (by simp [hfirst p hmem])]
      exact ih hmore hmem

/-- Every entry of the first mapping has a counterpart in the second. -/
theorem entriesAmong_iff {xs ys : List (Value × Value)} :
    entriesAmong xs ys = true ↔
      ∀ p ∈ xs, ∃ q, ys.find? (fun (l, _) => same p.1 l) = some q ∧ same p.2 q.2 = true := by
  induction xs with
  | nil => simp [entriesAmong]
  | cons p more ih =>
    obtain ⟨k, v⟩ := p
    rw [entriesAmong, Bool.and_eq_true, ih, List.forall_mem_cons]
    refine and_congr_left fun _ => ?_
    cases ys.find? (fun (l, _) => same k l) with
    | none => simp
    | some q => simp

theorem same_self {v : Value} (h : v.HasDistinctKeys) : same v v = true := by
  induction h with
  | null => rfl
  | bool b => exact beq_self_eq_true b
  | number n => exact n.same_self
  | string s => exact beq_self_eq_true s
  | sequence _ ih => exact sameItems_self ih
  | mapping _ _ distinct ihkeys ihvalues =>
    have hamong := entriesAmong_iff.2 fun p hp =>
      ⟨p, find?_of_distinct distinct hp (ihkeys p hp), ihvalues p hp⟩
    unfold same
    rw [beq_self_eq_true, hamong, Bool.and_self]
  | tagged tag _ ih =>
    unfold same
    rw [beq_self_eq_true, ih, Bool.and_self]

/-! ## Parts -/

theorem HasDistinctKeys.child? {v child : Value} (h : v.HasDistinctKeys) {segment : String}
    (hchild : v.child? segment = some child) : child.HasDistinctKeys := by
  cases h with
  | null | bool | number | string | tagged => cases hchild
  | sequence parts =>
    obtain ⟨i, -, hitem⟩ := Option.bind_eq_some_iff.1 hchild
    exact parts child (List.mem_of_getElem? hitem)
  | mapping _ values _ =>
    obtain ⟨p, hfind, rfl⟩ := Option.map_eq_some_iff.1 hchild
    exact values p (List.mem_of_find?_eq_some hfind)

theorem HasDistinctKeys.follow? {segments : List String} {root v : Value}
    (h : root.HasDistinctKeys) (hv : follow? segments root = some v) : v.HasDistinctKeys := by
  induction segments generalizing root with
  | nil =>
    obtain rfl := Option.some.inj hv
    exact h
  | cons segment more ih =>
    obtain ⟨child, hchild, hmore⟩ := Option.bind_eq_some_iff.1 hv
    exact ih (h.child? hchild) hmore

end Value

end BoundFields
