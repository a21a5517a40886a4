import Mathlib.Data.List.Perm.Subperm
import BoundFields.Proofs.Metadata.DistinctKeys

/-!
# Being the same metadata

Values with mappings whose keys differ are compared as metadata by an equivalence relation: what is
the same as such a value is the same as everything that the value is the same as
(`Value.same_congr`), from which symmetry and transitivity follow (`Value.same_symm`,
`Value.same_trans`). The comparison of two mappings looks up the entries of one of them in the other
only. With differing keys and equally many entries no entry of the other is left over
(`Value.exists_counterpart`).
-/

set_option autoImplicit false

namespace BoundFields

/-- The same number is the same as the same numbers. -/
theorem Number.same_congr {m n : Number} (h : m.same n = true) (k : Number) :
    m.same k = n.same k := by
  cases m with
  | integer i =>
    cases n with
    | integer j =>
      have hij : i = j := by simpa [same] using h
      rw [hij]
    | float y => simp [same] at h
  | float x =>
    cases n with
    | integer j => simp [same] at h
    | float y =>
      cases k with
      | integer i => rfl
      | float z =>
        simp only [same, Bool.or_eq_true, Bool.and_eq_true] at h ⊢
        rcases h with ⟨hx, hy⟩ | hxy
        · -- There is one value only that is no number.
          cases x <;> cases y <;> simp_all [Double.isNaN]
        · obtain ⟨hle, -⟩ := Bool.and_eq_true_iff.1 hxy
          obtain ⟨hx, hy⟩ := Double.isNaN_of_le hle
          obtain ⟨hleft, hright⟩ := Double.le_of_same hxy z
          rw [hx, hy, Double.same, Double.same, hleft, hright]

namespace Value

/-- What is the same as the value is the same as everything that the value is the same as. -/
def IsCongruent (v : Value) : Prop := ∀ w, same v w = true → ∀ u, same v u = same w u

/-! ## Sequences and mappings -/

theorem sameItems_congr {xs ys : List Value} (hx : ∀ v ∈ xs, v.IsCongruent)
    (h : sameItems xs ys = true) (zs : List Value) : sameItems xs zs = sameItems ys zs := by
  -- The sequences that are the same have equally many items, so that they end together.
  induction xs generalizing ys zs with
  | nil =>
    cases ys with
    | nil => rfl
    | cons y ys => simp [sameItems] at h
  | cons x xs ih =>
    cases ys with
    | nil => simp [sameItems] at h
    | cons y ys =>
      rw [sameItems, Bool.and_eq_true] at h
      rw [List.forall_mem_cons] at hx
      cases zs with
      | nil => rfl
      | cons z zs => rw [sameItems, sameItems, hx.1 y h.1 z, ih hx.2 h.2 zs]

theorem same_of_find? {k : Value} {q : Value × Value} {ys : List (Value × Value)}
    (h : ys.find? (fun (l, _) => same k l) = some q) : same k q.1 = true := by
  simpa using List.find?_some h

section Counterparts

variable {xs ys : List (Value × Value)}
  (hkeys : ∀ p ∈ xs, p.1.IsCongruent ∧ same p.1 p.1 = true)
  (distinct : xs.Pairwise fun p q => same q.1 p.1 = false)

include hkeys distinct

/-- If the entries of a mapping whose keys differ have counterparts in one that has no more entries,
then all entries of the other are such counterparts. -/
theorem exists_counterpart (hlength : ys.length ≤ xs.length) (h : entriesAmong xs ys = true)
    {q : Value × Value} (hq : q ∈ ys) :
    ∃ p ∈ xs, same p.1 q.1 = true ∧ same p.2 q.2 = true := by
  rw [entriesAmong_iff] at h
  choose! counterpart hfind hvalue using h
  have hkey : ∀ p ∈ xs, same p.1 (counterpart p).1 = true := fun p hp =>
    same_of_find? (hfind p hp)
  -- Two entries with one counterpart would have the same key.
  have hnodup : (xs.map counterpart).Nodup := by
    rw [List.Nodup, List.pairwise_map]
    refine List.Pairwise.imp_of_mem ?_ distinct
    intro p p' hp hp' hdiffer heq
    have hp_self := (hkeys p hp).2
    rw [(hkeys p hp).1 _ (hkey p hp), heq, ← (hkeys p' hp').1 _ (hkey p' hp')] at hp_self
    rw [hp_self] at hdiffer
    cases hdiffer
  have hsubset : xs.map counterpart ⊆ ys := by
    intro r hr
    obtain ⟨p, hp, rfl⟩ := List.mem_map.1 hr
    exact List.mem_of_find?_eq_some (hfind p hp)
  have hperm := (List.subperm_of_subset hnodup hsubset).perm_of_length_le (by simpa using hlength)
  obtain ⟨p, hp, rfl⟩ := List.mem_map.1 (hperm.mem_iff.2 hq)
  exact ⟨p, hp, hkey p hp, hvalue p hp⟩

theorem entriesAmong_congr (hvalues : ∀ p ∈ xs, p.2.IsCongruent) (hlength : ys.length ≤ xs.length)
    (h : entriesAmong xs ys = true) (zs : List (Value × Value)) :
    entriesAmong xs zs = entriesAmong ys zs := by
  -- The same keys are looked up with the same result.
  have hfind {p q : Value × Value} (hp : p ∈ xs) (hkey : same p.1 q.1 = true) :
      zs.find? (fun (l, _) => same p.1 l) = zs.find? (fun (l, _) => same q.1 l) := by
    simp only [(hkeys p hp).1 q.1 hkey]
  rw [Bool.eq_iff_iff, entriesAmong_iff, entriesAmong_iff]
  constructor
  · intro hxz q hq
    obtain ⟨p, hp, hkey, hvalue⟩ := exists_counterpart hkeys distinct hlength h hq
    obtain ⟨r, hr, hsame⟩ := hxz p hp
    rw [hvalues p hp q.2 hvalue] at hsame
    exact ⟨r, (hfind hp hkey) ▸ hr, hsame⟩
  · intro hyz p hp
    obtain ⟨q, hq, hvalue⟩ := entriesAmong_iff.1 h p hp
    obtain ⟨r, hr, hsame⟩ := hyz q (List.mem_of_find?_eq_some hq)
    rw [← hvalues p hp q.2 hvalue] at hsame
    exact ⟨r, (hfind hp (same_of_find? hq)).trans hr, hsame⟩

end Counterparts

/-! ## All values -/

theorem HasDistinctKeys.isCongruent {v : Value} (h : v.HasDistinctKeys) : v.IsCongruent := by
  induction h with
  | null =>
    intro w hw u
    cases w with
    | null => rfl
    | _ => simp [same] at hw
  | bool b =>
    intro w hw u
    cases w with
    | bool c =>
      have hbc : b = c := by simpa [same] using hw
      rw [hbc]
    | _ => simp [same] at hw
  | number n =>
    intro w hw u
    cases w with
    | number m =>
      cases u with
      | number k => exact Number.same_congr hw k
      | _ => rfl
    | _ => simp [same] at hw
  | string s =>
    intro w hw u
    cases w with
    | string t =>
      have hst : s = t := by simpa [same] using hw
      rw [hst]
    | _ => simp [same] at hw
  | sequence _ ih =>
    intro w hw u
    cases w with
    | sequence ys =>
      cases u with
      | sequence zs => exact sameItems_congr ih hw zs
      | _ => rfl
    | _ => simp [same] at hw
  | mapping keys _ distinct ihkeys ihvalues =>
    intro w hw u
    cases w with
    | mapping ys =>
      simp only [same, Bool.and_eq_true, beq_iff_eq] at hw
      obtain ⟨hlength, hamong⟩ := hw
      cases u with
      | mapping zs =>
        -- Both mappings have as many entries, so that no entry of the second is left over.
        have hkeys := fun p hp => And.intro (ihkeys p hp) (same_self (keys p hp))
        rw [same, same, hlength,
          entriesAmong_congr hkeys distinct ihvalues (Nat.le_of_eq hlength.symm) hamong zs]
      | _ => rfl
    | _ => simp [same] at hw
  | tagged tag _ ih =>
    intro w hw u
    cases w with
    | tagged tag' v' =>
      simp only [same, Bool.and_eq_true, beq_iff_eq] at hw
      obtain ⟨rfl, hv⟩ := hw
      cases u with
      | tagged tag'' v'' => simp only [same, ih v' hv v'']
      | _ => rfl
    | _ => simp [same] at hw

variable {a b c : Value}

theorem same_congr (ha : a.HasDistinctKeys) (h : same a b = true) (c : Value) :
    same a c = same b c :=
  ha.isCongruent b h c

theorem same_symm (ha : a.HasDistinctKeys) (h : same a b = true) : same b a = true := by
  rw [← same_congr ha h a]
  exact same_self ha

theorem same_trans (ha : a.HasDistinctKeys) (hab : same a b = true) (hbc : same b c = true) :
    same a c = true :=
  (same_congr ha hab c).trans hbc

end Value

end BoundFields
