import BoundFields.Keyed
import Mathlib.Data.List.Induction
import Mathlib.Data.List.Nodup

/-!
# Keys that occur once

What is read under a key is the value of its first entry. Where every key has one entry only
(`Keyed.IsUnique`), which putting and erasing keep up, it is the value of any entry with that key.
-/

set_option autoImplicit false

namespace BoundFields.Keyed

variable {κ ν : Type} [DecidableEq κ]

/-- No key has two entries. -/
def IsUnique (m : Keyed κ ν) : Prop := m.keys.Nodup

theorem map_fst_putEntry (key : κ) (value : ν) (entries : List (κ × ν)) :
    (putEntry key value entries).map (·.1) =
      if key ∈ entries.map (·.1) then entries.map (·.1) else entries.map (·.1) ++ [key] := by
  induction entries with
  | nil => rfl
  | cons entry more ih =>
    obtain ⟨k, v⟩ := entry
    by_cases hk : k = key
    · simp [putEntry, hk]
    · have hmem : key ∈ k :: more.map (·.1) ↔ key ∈ more.map (·.1) := by
        simp [Ne.symm hk]
      simp only [putEntry, if_neg hk, List.map_cons, ih, hmem]
      split <;> simp

theorem isUnique_put {m : Keyed κ ν} (h : m.IsUnique) (key : κ) (value : ν) :
    (m.put key value).IsUnique := by
  have hkeys := map_fst_putEntry key value m.entries
  unfold IsUnique keys put
  rw [hkeys]
  split
  · exact h
  · next hnew =>
    rw [List.nodup_append]
    refine ⟨h, List.nodup_singleton key, ?_⟩
    intro k hk k' hk'
    obtain rfl := List.mem_singleton.1 hk'
    intro heq
    exact hnew (heq ▸ hk)

/-- Putting back what is under a key changes nothing, the order of the keys included. -/
theorem put_of_get? {m : Keyed κ ν} {key : κ} {value : ν} (h : m.get? key = some value) :
    m.put key value = m := by
  obtain ⟨entries⟩ := m
  induction entries with
  | nil => cases h
  | cons entry more ih =>
    obtain ⟨k, v⟩ := entry
    by_cases hk : k = key
    · have hv : v = value := by simpa [get?, find?, hk] using h
      simp [put, putEntry, hk, hv]
    · have hmore : find? key more = some value := by simpa [get?, find?, hk] using h
      have hput := congrArg entries (ih hmore)
      simpa [put, putEntry, hk] using hput

theorem mem_of_mem_putEntry {key : κ} {value : ν} {entries : List (κ × ν)} {p : κ × ν}
    (h : p ∈ putEntry key value entries) : p = (key, value) ∨ p ∈ entries := by
  induction entries with
  | nil => exact .inl (List.mem_singleton.1 h)
  | cons entry more ih =>
    obtain ⟨k, v⟩ := entry
    by_cases hk : k = key
    · rw [putEntry, if_pos hk, hk] at h
      exact (List.mem_cons.1 h).imp_right (List.mem_cons_of_mem _)
    · rw [putEntry, if_neg hk] at h
      rcases List.mem_cons.1 h with rfl | h
      · exact .inr List.mem_cons_self
      · exact (ih h).imp_right (List.mem_cons_of_mem _)

theorem eraseEntry_sublist (key : κ) (entries : List (κ × ν)) :
    (eraseEntry key entries).Sublist entries := by
  induction entries with
  | nil => exact List.Sublist.slnil
  | cons entry more ih =>
    obtain ⟨k, v⟩ := entry
    by_cases hk : k = key
    · simpa [eraseEntry, hk] using ih.cons (k, v)
    · simpa [eraseEntry, hk] using ih.cons_cons (k, v)

theorem isUnique_erase {m : Keyed κ ν} (h : m.IsUnique) (key : κ) : (m.erase key).IsUnique :=
  List.Nodup.sublist ((eraseEntry_sublist key m.entries).map _) h

theorem get?_of_mem {m : Keyed κ ν} (h : m.IsUnique) {key : κ} {v : ν}
    (hmem : (key, v) ∈ m.entries) : m.get? key = some v := by
  obtain ⟨entries⟩ := m
  induction entries with
  | nil => cases hmem
  | cons entry more ih =>
    obtain ⟨k, w⟩ := entry
    obtain ⟨hnew, hmore⟩ := List.nodup_cons.1 h
    rcases List.mem_cons.1 hmem with heq | hmem
    · obtain ⟨rfl, rfl⟩ := Prod.mk.inj heq
      exact if_pos rfl
    · have hne : k ≠ key := by
        intro heq
        exact hnew (List.mem_map.2 ⟨(key, v), hmem, heq.symm⟩)
      exact (if_neg hne).trans (ih hmore hmem)

theorem mem_of_get? {m : Keyed κ ν} {key : κ} {v : ν} (h : m.get? key = some v) :
    (key, v) ∈ m.entries := by
  obtain ⟨entries⟩ := m
  induction entries with
  | nil => cases h
  | cons entry more ih =>
    obtain ⟨k, w⟩ := entry
    by_cases hk : k = key
    · have hw : w = v := by simpa [get?, find?, hk] using h
      rw [hk, hw]
      exact List.mem_cons_self
    · have hmore : find? key more = some v := by simpa [get?, find?, hk] using h
      exact List.mem_cons_of_mem _ (ih hmore)

/-- The keys are those under which something is read. -/
theorem mem_keys_iff {m : Keyed κ ν} {key : κ} : key ∈ m.keys ↔ ∃ v, m.get? key = some v := by
  constructor
  · intro hmem
    obtain ⟨entries⟩ := m
    induction entries with
    | nil => cases hmem
    | cons entry more ih =>
      obtain ⟨k, w⟩ := entry
      by_cases hk : k = key
      · exact ⟨w, if_pos hk⟩
      · rcases List.mem_cons.1 hmem with heq | hmem
        · exact absurd heq.symm hk
        · obtain ⟨v, hv⟩ := ih hmem
          exact ⟨v, (if_neg hk).trans hv⟩
  · rintro ⟨v, hv⟩
    exact List.mem_map.2 ⟨(key, v), mem_of_get? hv, rfl⟩

theorem get?_eq_none_iff {m : Keyed κ ν} {key : κ} : m.get? key = none ↔ key ∉ m.keys := by
  rw [mem_keys_iff, Option.eq_none_iff_forall_ne_some, not_exists]

/-- A key that is new comes last. -/
theorem keys_put_of_notMem {m : Keyed κ ν} {key : κ} (h : key ∉ m.keys) (value : ν) :
    (m.put key value).keys = m.keys ++ [key] := by
  refine (map_fst_putEntry key value m.entries).trans ?_
  exact if_neg h

/-- Another value under a key that is there leaves the keys as they are. -/
theorem keys_put_of_mem {m : Keyed κ ν} {key : κ} (h : key ∈ m.keys) (value : ν) :
    (m.put key value).keys = m.keys := by
  refine (map_fst_putEntry key value m.entries).trans ?_
  exact if_pos h

theorem find?_map {ν' : Type} (f : ν → ν') (key : κ) (entries : List (κ × ν)) :
    find? key (entries.map fun (k, v) => (k, f v)) = (find? key entries).map f := by
  induction entries with
  | nil => rfl
  | cons entry more ih =>
    obtain ⟨k, v⟩ := entry
    by_cases hk : k = key
    · simp [find?, hk]
    · simp only [List.map_cons, find?, if_neg hk]
      exact ih

end BoundFields.Keyed
