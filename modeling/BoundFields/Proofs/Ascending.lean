import BoundFields.Ascending
import Mathlib.Order.RelClasses
import Mathlib.Data.List.Basic

/-!
# Lists in ascending order

Insertion keeps a list in strictly ascending order (`pairwise_insert`), and such a list is told by
its members (`eq_of_mem_iff`). There a thing, or else the place where it belongs, is found by
halving (`search`, `isPlaced_search`): a thing that is not found is put where the search ended
(`insert_of_search`). That insertion may be repeated (`insert_insert`) and done in either order
(`insert_comm`) holds of any list.
-/

set_option autoImplicit false

namespace BoundFields.Ascending

variable {α : Type} [LT α] [DecidableLT α] [DecidableEq α]

/-! ## Putting in -/

theorem insert_insert (a : α) (members : List α) :
    insert a (insert a members) = insert a members := by
  induction members with
  | nil => simp [insert]
  | cons c more ih =>
    by_cases hc : a = c
    · simp [insert, hc]
    · by_cases hlt : a < c
      · simp [insert, hc, hlt]
      · simp [insert, hc, hlt, ih]

/-- What is put in is not seen by a test that it fails. -/
theorem filter_insert {a : α} {test : α → Bool} (h : test a = false) (members : List α) :
    (insert a members).filter test = members.filter test := by
  induction members with
  | nil => simp [insert, h]
  | cons c more ih =>
    unfold insert
    split
    · rfl
    · split
      · simp [h]
      · simp [List.filter_cons, ih]

theorem find?_insert {a : α} {test : α → Bool} (h : test a = false) (members : List α) :
    (insert a members).find? test = members.find? test := by
  rw [← List.head?_filter, filter_insert h, List.head?_filter]

/-! ## Searching by halving -/

/-- The place of `a` among the members from `low` up to `high`: the middle one tells in which half
to go on. If `a` is not there, the error is the place where it belongs. -/
def searchBetween (a : α) (members : List α) (low high : Nat) (hhigh : high ≤ members.length) :
    Except Nat Nat :=
  if hlow : low < high then
    let middle := (low + high) / 2
    have hmiddle : middle < members.length := by omega
    if members[middle] = a then .ok middle
    else if members[middle] < a then searchBetween a members (middle + 1) high hhigh
    else searchBetween a members low middle (Nat.le_of_lt hmiddle)
  else .error low
termination_by high - low

/-- The place of `a`, or else the place where it belongs. -/
def search (a : α) (members : List α) : Except Nat Nat :=
  searchBetween a members 0 members.length (Nat.le_refl _)

/-- What a search may tell: where `a` is, or, if it is not there, between what it belongs. -/
inductive IsPlaced (a : α) (members : List α) : Except Nat Nat → Prop where
  | found {place : Nat} (there : members[place]? = some a) : IsPlaced a members (.ok place)
  | missing {front back : List α} (parts : members = front ++ back)
      (before : ∀ b ∈ front, b < a) (behind : ∀ b ∈ back, a < b) :
      IsPlaced a members (.error front.length)

omit [DecidableLT α] [DecidableEq α] in
/-- A member parts an ascending list into what is less and what is greater. -/
theorem lt_of_pairwise {members : List α} (h : members.Pairwise (· < ·)) {place : Nat}
    (hplace : place < members.length) :
    (∀ b ∈ members.take place, b < members[place]) ∧
      ∀ b ∈ members.drop (place + 1), members[place] < b := by
  have hparts : members = members.take place ++ members[place] :: members.drop (place + 1) := by
    rw [List.getElem_cons_drop, List.take_append_drop]
  rw [hparts, List.pairwise_append, List.pairwise_cons] at h
  obtain ⟨-, ⟨hbehind, -⟩, hbefore⟩ := h
  exact ⟨fun b hb => hbefore b hb _ List.mem_cons_self, hbehind⟩

variable [IsStrictTotalOrder α (· < ·)]

/-! ## The order of things put in -/

theorem insert_comm_of_lt {a b : α} (h : a < b) (members : List α) :
    insert a (insert b members) = insert b (insert a members) := by
  have hne : a ≠ b := ne_of_irrefl h
  have hback : ¬ b < a := asymm h
  induction members with
  | nil => simp [insert, hne, hne.symm, h, hback]
  | cons c more ih =>
    by_cases hlt : a < c
    · -- The lesser one goes to the front either way.
      have hac : a ≠ c := ne_of_irrefl hlt
      by_cases hbc : b = c
      · simp [insert, hbc, hac, hac.symm, hlt, asymm hlt]
      · by_cases hlt' : b < c
        · simp [insert, hne, hne.symm, h, hback, hac, hlt, hbc, hlt']
        · simp [insert, hne.symm, hback, hac, hlt, hbc, hlt']
    · -- Neither belongs in front of `c`.
      have hlt' : ¬ b < c := fun hbc => hlt (trans_of (· < ·) h hbc)
      have hbc : b ≠ c := fun heq => hlt (heq ▸ h)
      by_cases hac : a = c
      · simp [insert, hac, hbc, hlt']
      · simp [insert, hac, hlt, hbc, hlt', ih]

/-- The order in which two members are put in their places does not matter. -/
theorem insert_comm (a b : α) (members : List α) :
    insert a (insert b members) = insert b (insert a members) := by
  rcases trichotomous_of (· < ·) a b with hlt | rfl | hlt
  · exact insert_comm_of_lt hlt members
  · rfl
  · exact (insert_comm_of_lt hlt members).symm

/-! ## Lists in ascending order -/

theorem pairwise_insert {members : List α} (h : members.Pairwise (· < ·)) (a : α) :
    (insert a members).Pairwise (· < ·) := by
  induction members with
  | nil => exact List.pairwise_singleton _ a
  | cons c more ih =>
    obtain ⟨hc, hmore⟩ := List.pairwise_cons.1 h
    unfold insert
    split
    · exact h
    · next hne =>
      split
      · next hlt =>
        refine List.pairwise_cons.2 ⟨?_, h⟩
        intro b hb
        rcases List.mem_cons.1 hb with rfl | hb
        · exact hlt
        · exact trans_of (· < ·) hlt (hc b hb)
      · next hnlt =>
        refine List.pairwise_cons.2 ⟨?_, ih hmore⟩
        intro b hb
        rcases mem_insert.1 hb with rfl | hb
        · rcases trichotomous_of (· < ·) b c with hlt | heq | hgt
          · exact absurd hlt hnlt
          · exact absurd heq hne
          · exact hgt
        · exact hc b hb

theorem pairwise_ofList (members : List α) : (ofList members).Pairwise (· < ·) := by
  induction members with
  | nil => exact List.Pairwise.nil
  | cons a more ih => exact pairwise_insert ih a

omit [DecidableLT α] [DecidableEq α] in
/-- An ascending list is told by its members. -/
theorem eq_of_mem_iff {members members' : List α} (h : members.Pairwise (· < ·))
    (h' : members'.Pairwise (· < ·)) (hmem : ∀ a, a ∈ members ↔ a ∈ members') :
    members = members' := by
  have hnodup {some : List α} (hsome : some.Pairwise (· < ·)) : some.Nodup :=
    hsome.imp fun hlt => ne_of_irrefl hlt
  apply List.Perm.eq_of_pairwise _ h h'
    ((List.perm_ext_iff_of_nodup (hnodup h) (hnodup h')).2 hmem)
  intro a b _ _ hlt hgt
  exact absurd hgt (asymm hlt)

/-- What is there already is not put in again. -/
theorem insert_of_mem {members : List α} (h : members.Pairwise (· < ·)) {a : α}
    (ha : a ∈ members) : insert a members = members := by
  apply eq_of_mem_iff (pairwise_insert h a) h
  intro b
  rw [mem_insert]
  constructor
  · rintro (rfl | hb)
    · exact ha
    · exact hb
  · exact Or.inr

/-- Anything else is put between what is less and what is greater. -/
theorem insert_between {a : α} {front back : List α} (hbefore : ∀ b ∈ front, b < a)
    (hbehind : ∀ b ∈ back, a < b) : insert a (front ++ back) = front ++ a :: back := by
  induction front with
  | nil =>
    cases back with
    | nil => rfl
    | cons b more =>
      have hlt := hbehind b List.mem_cons_self
      rw [List.nil_append, List.nil_append, insert, if_neg (ne_of_irrefl hlt), if_pos hlt]
  | cons b more ih =>
    obtain ⟨hb, hmore⟩ := List.forall_mem_cons.1 hbefore
    rw [List.cons_append, insert, if_neg (ne_of_irrefl' hb), if_neg (asymm hb), ih hmore]
    rfl

/-! ## Searches in ascending lists -/

/-- All that stands in front of `low` stays less than `a`, and all that stands from `high` on stays
greater. -/
theorem isPlaced_searchBetween {a : α} {members : List α} (h : members.Pairwise (· < ·))
    {low high : Nat} (hhigh : high ≤ members.length) (hle : low ≤ high)
    (hbefore : ∀ b ∈ members.take low, b < a) (hbehind : ∀ b ∈ members.drop high, a < b) :
    IsPlaced a members (searchBetween a members low high hhigh) := by
  fun_induction searchBetween a members low high hhigh with
  | case1 low high hhigh hlow middle hmiddle heq =>
    exact .found (List.getElem?_eq_some_iff.2 ⟨_, heq⟩)
  | case2 low high hhigh hlow middle hmiddle hne hlt ih =>
    refine ih (by omega) ?_ hbehind
    intro b hb
    rw [List.take_succ_eq_append_getElem hmiddle, List.mem_append, List.mem_singleton] at hb
    rcases hb with hb | rfl
    · exact trans_of (· < ·) ((lt_of_pairwise h hmiddle).1 b hb) hlt
    · exact hlt
  | case3 low high hhigh hlow middle hmiddle hne hnlt ih =>
    have hgt : a < members[middle] := by
      rcases trichotomous_of (· < ·) a members[middle] with hgt | heq | hlt
      · exact hgt
      · exact absurd heq.symm hne
      · exact absurd hlt hnlt
    refine ih (by omega) hbefore ?_
    intro b hb
    rw [List.drop_eq_getElem_cons hmiddle, List.mem_cons] at hb
    rcases hb with rfl | hb
    · exact hgt
    · exact trans_of (· < ·) hgt ((lt_of_pairwise h hmiddle).2 b hb)
  | case4 low high hhigh hlow =>
    obtain rfl : low = high := by omega
    have hplaced := IsPlaced.missing (List.take_append_drop low members).symm hbefore hbehind
    rwa [List.length_take_of_le hhigh] at hplaced

/-- In an ascending list a search is right. -/
theorem isPlaced_search {members : List α} (h : members.Pairwise (· < ·)) (a : α) :
    IsPlaced a members (search a members) :=
  isPlaced_searchBetween h _ (Nat.zero_le _) (by simp) (by simp)

theorem mem_iff_search {members : List α} (h : members.Pairwise (· < ·)) (a : α) :
    a ∈ members ↔ ∃ place, search a members = .ok place := by
  have hplaced := isPlaced_search h a
  cases hsearch : search a members with
  | ok place =>
    rw [hsearch] at hplaced
    cases hplaced with
    | found there => exact ⟨fun _ => ⟨place, rfl⟩, fun _ => List.mem_of_getElem? there⟩
  | error place =>
    rw [hsearch] at hplaced
    refine ⟨fun ha => ?_, fun ⟨place, hplace⟩ => nomatch hplace⟩
    cases hplaced with
    | missing parts before behind =>
      rw [parts, List.mem_append] at ha
      rcases ha with hfront | hback
      · exact absurd (before a hfront) (irrefl a)
      · exact absurd (behind a hback) (irrefl a)

/-- A search that finds nothing ends where the thing is put. -/
theorem insert_of_search {members : List α} (h : members.Pairwise (· < ·)) {a : α}
    {place : Nat} (hsearch : search a members = .error place) :
    insert a members = members.take place ++ a :: members.drop place := by
  have hplaced := isPlaced_search h a
  rw [hsearch] at hplaced
  cases hplaced with
  | missing parts before behind =>
    rw [parts, insert_between before behind, List.take_left, List.drop_left]

end BoundFields.Ascending
