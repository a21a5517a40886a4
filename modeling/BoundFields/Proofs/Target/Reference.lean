import BoundFields.Proofs.Text.Pieces
import BoundFields.Proofs.Text.Trim
import BoundFields.Target.FileRef

/-!
# References that stay as they are

A reference is trimmed and gets slashes for its backslashes (`FileRef.slashed`), and then it loses
what stands in front of a path without changing what it means: marks of the current folder, and
slashes behind them (`FileRef.unled_eq_iff`). A path is its own reference exactly if nothing of all
this is found in it (`FileRef.ofText_eq_self_iff`); of a path with nothing in front and no blank at
its end it is enough that it is plain (`FileRef.ofText_eq_iff`).
-/

set_option autoImplicit false

namespace BoundFields

open Text

/-- A path that starts with no blank and has no backslash in it. -/
def IsPlainPath (path : String) : Prop :=
  (∀ c ∈ path.toList.head?, isBlank c = false) ∧ '\\' ∉ path.toList

-- Only the first character is looked at, not all that there are.
instance (path : String) : Decidable (IsPlainPath path) :=
  @instDecidableAnd _ _ (Option.decidableForallMem path.toList.head?) inferInstance

namespace FileRef

/-! ## What stands in front -/

/-- Marks of the current folder, and slashes behind them. -/
def lead (marks slashes : Nat) : List Char :=
  (List.replicate marks ['.', '/']).flatten ++ List.replicate slashes '/'

/-- The text without the marks and slashes at its start. -/
def unled (cs : List Char) : List Char := (dropCurrent cs).dropWhile (· = '/')

theorem lead_succ (marks slashes : Nat) :
    lead (marks + 1) slashes = '.' :: '/' :: lead marks slashes := rfl

theorem lead_eq_append (marks slashes : Nat) :
    lead marks slashes = lead marks 0 ++ List.replicate slashes '/' := by
  simp [lead]

theorem lead_eq_nil_iff {marks slashes : Nat} :
    lead marks slashes = [] ↔ marks = 0 ∧ slashes = 0 := by
  cases marks with
  | zero => simp [lead]
  | succ marks => simp [lead_succ]

theorem mem_lead {marks slashes : Nat} {c : Char} (h : c ∈ lead marks slashes) :
    c = '.' ∨ c = '/' := by
  induction marks with
  | zero => exact .inr (List.eq_of_mem_replicate h)
  | succ marks ih =>
    rw [lead_succ, List.mem_cons, List.mem_cons] at h
    rcases h with rfl | rfl | hmore
    · exact .inl rfl
    · exact .inr rfl
    · exact ih hmore

theorem dropCurrent_of_not_mark {cs : List Char} (h : ¬ ['.', '/'] <+: cs) :
    dropCurrent cs = cs := by
  unfold dropCurrent
  split
  · next rest => exact absurd ⟨rest, rfl⟩ h
  · rfl

/-- All marks are taken off, and what is left starts with none. -/
theorem exists_eq_dropCurrent (cs : List Char) :
    (∃ marks, cs = lead marks 0 ++ dropCurrent cs) ∧ ¬ ['.', '/'] <+: dropCurrent cs := by
  fun_induction dropCurrent cs with
  | case1 rest ih =>
    obtain ⟨⟨marks, hmarks⟩, hrest⟩ := ih
    refine ⟨⟨marks + 1, ?_⟩, hrest⟩
    rw [lead_succ, List.cons_append, List.cons_append, ← hmarks]
  | case2 cs hcs =>
    refine ⟨⟨0, rfl⟩, ?_⟩
    rintro ⟨rest, hrest⟩
    exact hcs rest hrest.symm

theorem unled_lead (marks : Nat) {slashes : Nat} {rest : List Char} (hslash : ¬ ['/'] <+: rest)
    (hmark : slashes = 0 → ¬ ['.', '/'] <+: rest) : unled (lead marks slashes ++ rest) = rest := by
  induction marks with
  | zero =>
    have hlead : lead 0 slashes = List.replicate slashes '/' := rfl
    have hdrop : dropCurrent (lead 0 slashes ++ rest) = List.replicate slashes '/' ++ rest := by
      rw [hlead]
      cases slashes with
      | zero => exact dropCurrent_of_not_mark (hmark rfl)
      | succ slashes => rfl
    have hrest : rest.dropWhile (· = '/') = rest := by
      cases rest with
      | nil => rfl
      | cons c more =>
        apply List.dropWhile_cons_of_neg
        intro hc
        exact hslash ⟨more, by rw [of_decide_eq_true hc]; rfl⟩
    rw [unled, hdrop, List.dropWhile_append_of_pos, hrest]
    intro c hc
    exact decide_eq_true (List.eq_of_mem_replicate hc)
  | succ marks ih => exact ih

/-- What is left is told by what it starts with: no slash, and no mark unless a slash was taken
off. -/
theorem unled_eq_iff {cs rest : List Char} :
    unled cs = rest ↔ ¬ ['/'] <+: rest ∧ ∃ marks slashes, cs = lead marks slashes ++ rest ∧
      (slashes = 0 → ¬ ['.', '/'] <+: rest) := by
  constructor
  · rintro rfl
    obtain ⟨⟨marks, hmarks⟩, hmark⟩ := exists_eq_dropCurrent cs
    have hslashes : (dropCurrent cs).takeWhile (· = '/') =
        List.replicate ((dropCurrent cs).takeWhile (· = '/')).length '/' := by
      apply List.eq_replicate_of_mem
      intro c hc
      exact of_decide_eq_true (List.all_eq_true.1 List.all_takeWhile c hc)
    have hparts := List.takeWhile_append_dropWhile (p := (· = '/')) (l := dropCurrent cs)
    refine ⟨?_, marks, ((dropCurrent cs).takeWhile (· = '/')).length, ?_, ?_⟩
    · rintro ⟨rest, hrest⟩
      have hhead := List.head?_dropWhile_not (· = '/') (dropCurrent cs)
      rw [← unled, ← hrest] at hhead
      simp at hhead
    · rw [lead_eq_append, ← hslashes, List.append_assoc, unled, hparts]
      exact hmarks
    · intro hnone
      rw [hnone, List.replicate_zero] at hslashes
      rw [hslashes, List.nil_append] at hparts
      rwa [unled, hparts]
  · rintro ⟨hslash, marks, slashes, rfl, hmark⟩
    exact unled_lead marks hslash hmark

/-! ## Trimmed, with slashes -/

/-- The path without blanks around it, with slashes for its backslashes. -/
def slashed (raw : String) : List Char :=
  (trim raw.toList).map fun c => if c = '\\' then '/' else c

theorem toList_ofText (raw : String) : (ofText raw).path.toList = unled (slashed raw) :=
  String.toList_ofList

theorem not_mem_slashed (raw : String) : '\\' ∉ slashed raw := by
  intro hmem
  obtain ⟨c, -, hc⟩ := List.mem_map.1 hmem
  split at hc
  · cases hc
  · next hne => exact hne hc

theorem slashed_of_not_mem {raw : String} (h : '\\' ∉ raw.toList) :
    slashed raw = trim raw.toList := by
  have hsame : ∀ c ∈ trim raw.toList, (if c = '\\' then '/' else c) = id c := by
    intro c hc
    apply if_neg
    rintro rfl
    obtain ⟨front, back, -, -, hparts⟩ := exists_eq_trim raw.toList
    rw [hparts] at h
    exact h (List.mem_append_left _ (List.mem_append_right _ hc))
  rw [slashed, List.map_congr_left hsame, List.map_id]

theorem length_slashed (raw : String) : (slashed raw).length = (trim raw.toList).length :=
  List.length_map _

/-! ## A path as its own reference -/

/-- A path is its own reference if nothing in it is changed and nothing is taken off. -/
theorem ofText_eq_self_iff {path : String} :
    ofText path = ⟨path⟩ ↔ trim path.toList = path.toList ∧ '\\' ∉ path.toList ∧
      ¬ ['/'] <+: path.toList ∧ ¬ ['.', '/'] <+: path.toList := by
  have hpath : ofText path = ⟨path⟩ ↔ unled (slashed path) = path.toList := by
    rw [← toList_ofText, String.toList_inj, FileRef.mk.injEq]
  rw [hpath, unled_eq_iff]
  constructor
  · rintro ⟨hslash, marks, slashes, hparts, hmark⟩
    -- Nothing can have been cut off, as the reference is as long as the path.
    obtain ⟨front, back, -, -, hsplit⟩ := exists_eq_trim path.toList
    have htrimmed := congrArg List.length hsplit
    have hled := congrArg List.length hparts
    rw [List.length_append, List.length_append] at htrimmed
    rw [length_slashed, List.length_append] at hled
    have hfront : front = [] := List.eq_nil_of_length_eq_zero (by omega)
    have hback : back = [] := List.eq_nil_of_length_eq_zero (by omega)
    have hlead : lead marks slashes = [] := List.eq_nil_of_length_eq_zero (by omega)
    rw [hlead, List.nil_append] at hparts
    rw [hfront, hback, List.nil_append, List.append_nil] at hsplit
    exact ⟨hsplit.symm, hparts ▸ not_mem_slashed path, hslash, hmark (lead_eq_nil_iff.1 hlead).2⟩
  · rintro ⟨htrim, hback, hslash, hmark⟩
    refine ⟨hslash, 0, 0, ?_, fun _ => hmark⟩
    rw [slashed_of_not_mem hback, htrim]
    rfl

/-- What a reference goes without amounts to this: a path whose end is no blank, and which starts
neither with a slash nor with a mark of the current folder, is its own reference if it is plain. -/
theorem ofText_eq_iff {path : String}
    (hlast : ∀ front c, path.toList = front ++ [c] → isBlank c = false)
    (hslash : ∀ rest, path.toList ≠ '/' :: rest)
    (hcurrent : ∀ rest, path.toList ≠ '.' :: '/' :: rest) :
    ofText path = ⟨path⟩ ↔ IsPlainPath path := by
  rw [ofText_eq_self_iff, trim_eq_self_iff]
  constructor
  · rintro ⟨⟨hhead, -⟩, hback, -⟩
    refine ⟨?_, hback⟩
    intro c hc
    obtain ⟨rest, hrest⟩ := List.head?_eq_some_iff.1 hc
    exact hhead c rest hrest
  · rintro ⟨hhead, hback⟩
    refine ⟨⟨?_, hlast⟩, hback, ?_, ?_⟩
    · intro c rest hrest
      exact hhead c (List.head?_eq_some_iff.2 ⟨rest, hrest⟩)
    · rintro ⟨rest, hrest⟩
      exact hslash rest hrest.symm
    · rintro ⟨rest, hrest⟩
      exact hcurrent rest hrest.symm

end FileRef

end BoundFields
