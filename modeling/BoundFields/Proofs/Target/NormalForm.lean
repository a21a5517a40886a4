import BoundFields.Proofs.Target.Index
import BoundFields.Proofs.Target.Reference

/-!
# References to references

A reference that is made of the path of another one should be that one. It is so exactly if nothing
comes into view that does not count once the slashes at the start of a path are gone
(`FileRef.Uncovers`): otherwise the reference itself starts with a blank or with a mark of the
current folder, and the document is not found by its own path (`FileRef.isNormal_iff`).
-/

set_option autoImplicit false

namespace BoundFields

open Text

namespace FileRef

/-- Behind the marks and slashes at its start the path goes on with a blank, or with a mark that
the slashes kept from being seen. -/
def Uncovers (raw : String) : Prop :=
  ∃ marks slashes rest, slashed raw = lead marks slashes ++ rest ∧
    ((∃ c ∈ rest.head?, isBlank c = true) ∨ slashes ≠ 0 ∧ ['.', '/'] <+: rest)

/-- Nothing stands in front that does not count. -/
structure IsClean (path : String) : Prop where
  noBlank : ∀ c ∈ path.toList.head?, isBlank c = false
  noMark : ¬ ['.', '/'] <+: path.toList
  noSlash : ¬ ['/'] <+: path.toList

/-! ## References -/

theorem not_slash_ofText (raw : String) : ¬ ['/'] <+: (ofText raw).path.toList := by
  rw [toList_ofText]
  exact (unled_eq_iff.1 rfl).1

/-- A reference is the end of the path that it was made of. -/
theorem exists_eq_append_ofText (raw : String) :
    ∃ marks slashes, slashed raw = lead marks slashes ++ (ofText raw).path.toList := by
  obtain ⟨-, marks, slashes, hparts, -⟩ := unled_eq_iff.1 (toList_ofText raw).symm
  exact ⟨marks, slashes, hparts⟩

theorem not_mem_ofText (raw : String) : '\\' ∉ (ofText raw).path.toList := by
  obtain ⟨marks, slashes, hparts⟩ := exists_eq_append_ofText raw
  intro hmem
  exact not_mem_slashed raw (hparts ▸ List.mem_append_right _ hmem)

/-- There is no blank at the end of a reference. -/
theorem isBlank_last_ofText {raw : String} {front : List Char} {c : Char}
    (h : (ofText raw).path.toList = front ++ [c]) : isBlank c = false := by
  obtain ⟨marks, slashes, hparts⟩ := exists_eq_append_ofText raw
  rw [h, ← List.append_assoc, slashed] at hparts
  obtain ⟨start, last, htrim, -, hlast⟩ := List.map_eq_append_iff.1 hparts
  obtain ⟨d, rfl, hd⟩ := List.map_eq_singleton_iff.1 hlast
  have hblank := isBlank_last_trim htrim
  split at hd
  · rw [← hd]
    decide
  · rwa [← hd]

theorem uncovers_iff {raw : String} :
    Uncovers raw ↔ (∃ c ∈ (ofText raw).path.toList.head?, isBlank c = true) ∨
      ['.', '/'] <+: (ofText raw).path.toList := by
  rw [toList_ofText]
  constructor
  · rintro ⟨marks, slashes, rest, hparts, hrest⟩
    -- What comes into view is neither a slash nor, where there was none, a mark.
    have hunled : unled (slashed raw) = rest := by
      refine unled_eq_iff.2 ⟨?_, marks, slashes, hparts, ?_⟩
      · rintro ⟨more, rfl⟩
        rcases hrest with ⟨c, hc, hblank⟩ | ⟨-, hmark⟩
        · obtain rfl := Option.some.inj hc
          exact absurd hblank (by decide)
        · exact absurd (List.cons_prefix_cons.1 hmark).1 (by decide)
      · rintro hnone ⟨more, rfl⟩
        rcases hrest with ⟨c, hc, hblank⟩ | ⟨hsome, -⟩
        · obtain rfl := Option.some.inj hc
          exact absurd hblank (by decide)
        · exact hsome hnone
    rw [hunled]
    exact hrest.imp_right And.right
  · intro h
    obtain ⟨-, marks, slashes, hparts, hmark⟩ := unled_eq_iff.1 (rfl : unled (slashed raw) = _)
    refine ⟨marks, slashes, _, hparts, h.imp_right fun hprefix => ⟨?_, hprefix⟩⟩
    intro hnone
    exact hmark hnone hprefix

theorem isClean_ofText_iff {raw : String} : IsClean (ofText raw).path ↔ ¬ Uncovers raw := by
  rw [uncovers_iff, not_or]
  constructor
  · intro h
    refine ⟨?_, h.noMark⟩
    rintro ⟨c, hc, hblank⟩
    rw [h.noBlank c hc] at hblank
    cases hblank
  · rintro ⟨hblank, hmark⟩
    refine ⟨?_, hmark, not_slash_ofText raw⟩
    intro c hc
    exact Bool.eq_false_iff.2 fun hc' => hblank ⟨c, hc, hc'⟩

/-- A reference is its own reference if nothing stands in front of it. -/
theorem ofText_ofText_iff {raw : String} :
    ofText (ofText raw).path = ofText raw ↔ IsClean (ofText raw).path := by
  have hself : ofText (ofText raw).path = ofText raw ↔
      ofText (ofText raw).path = ⟨(ofText raw).path⟩ := Iff.rfl
  rw [hself, ofText_eq_self_iff, trim_eq_self_iff]
  constructor
  · rintro ⟨⟨hhead, -⟩, -, hslash, hmark⟩
    refine ⟨?_, hmark, hslash⟩
    intro c hc
    obtain ⟨rest, hrest⟩ := List.head?_eq_some_iff.1 hc
    exact hhead c rest hrest
  · intro h
    refine ⟨⟨?_, fun _ _ => isBlank_last_ofText⟩, not_mem_ofText raw, h.noSlash, h.noMark⟩
    intro c rest hrest
    exact h.noBlank c (List.head?_eq_some_iff.2 ⟨rest, hrest⟩)

/-! ## Documents found by their paths -/

theorem withoutEnding_cases (cs : List Char) :
    withoutEnding cs = cs ∨ cs = withoutEnding cs ++ ending := by
  unfold withoutEnding
  cases h : dropSuffix? ending cs with
  | none => exact .inl rfl
  | some rest => exact .inr (dropSuffix?_eq_some_iff.1 h)

/-- No more than the ending is lost of what cannot be part of an ending. -/
theorem withoutEnding_append_inj {front rest : List Char} (h : 'm' ∉ front)
    (heq : withoutEnding (front ++ rest) = withoutEnding rest) : front = [] := by
  have hending : ending.length = 3 := rfl
  rcases withoutEnding_cases (front ++ rest) with hlong | hlong <;>
    rcases withoutEnding_cases rest with hshort | hshort
  · rw [hlong, hshort] at heq
    exact List.append_left_eq_self.1 heq
  · have hlength := congrArg List.length hshort
    rw [← heq, hlong, List.length_append, List.length_append] at hlength
    omega
  · -- The ending of the longer one has one letter more than there is in the other.
    rw [heq, hshort] at hlong
    have hcount := congrArg (List.count 'm') hlong
    rw [List.count_append, List.count_append, List.count_eq_zero.2 h] at hcount
    have hone : List.count 'm' ending = 1 := by decide
    omega
  · rw [heq, ← hshort] at hlong
    exact List.append_left_eq_self.1 hlong

/-- What the path of a reference loses when it is made into a reference is no part of an ending. -/
theorem exists_front_ofText (raw : String) :
    ∃ front, 'm' ∉ front ∧
      (ofText raw).path.toList = front ++ (ofText (ofText raw).path).path.toList := by
  obtain ⟨marks, slashes, hparts⟩ := exists_eq_append_ofText (ofText raw).path
  obtain ⟨blanks, back, hblanks, hback, hsplit⟩ := exists_eq_trim (ofText raw).path.toList
  rw [slashed_of_not_mem (not_mem_ofText raw)] at hparts
  rcases List.eq_nil_or_concat back with rfl | ⟨more, c, rfl⟩
  · refine ⟨blanks ++ lead marks slashes, ?_, ?_⟩
    · rw [List.mem_append, not_or]
      constructor
      · intro hmem
        exact absurd (List.all_eq_true.1 hblanks 'm' hmem) (by decide)
      · intro hmem
        exact absurd (mem_lead hmem) (by decide)
    · rw [List.append_assoc, ← hparts, ← List.append_nil (blanks ++ _)]
      exact hsplit
  · rw [List.concat_eq_append, ← List.append_assoc] at hsplit
    have hlast := List.all_eq_true.1 hback c (by simp)
    rw [isBlank_last_ofText hsplit] at hlast
    cases hlast

/-- The path of a reference stands for the same document only if it is a reference to it. -/
theorem stem_ofText_ofText_iff {raw : String} :
    (ofText (ofText raw).path).stem = (ofText raw).stem ↔
      ofText (ofText raw).path = ofText raw := by
  constructor
  · intro h
    obtain ⟨front, hfront, hparts⟩ := exists_front_ofText raw
    have hstems := congrArg String.toList h.symm
    rw [stem, stem, String.toList_ofList, String.toList_ofList, hparts] at hstems
    rw [withoutEnding_append_inj hfront hstems, List.nil_append, String.toList_inj] at hparts
    exact congrArg FileRef.mk hparts.symm
  · exact congrArg stem

/-- A document is found by its path exactly if this is a reference to it. -/
theorem exists_matchPath?_iff {raw : String} {index : FileIndex} (h : ofText raw ∈ index.files) :
    (∃ file, index.matchPath? (ofText raw).path = some file ∧ file.stem = (ofText raw).stem) ↔
      ofText (ofText raw).path = ofText raw := by
  rw [← stem_ofText_ofText_iff]
  constructor
  · rintro ⟨file, hfile, hstem⟩
    exact (FileIndex.mem_of_matchPath? hfile).2.symm.trans hstem
  · intro hstem
    obtain ⟨file, hfile⟩ := FileIndex.exists_matchPath? h hstem.symm
    exact ⟨file, hfile, (FileIndex.mem_of_matchPath? hfile).2.trans hstem⟩

/-- All that should hold of a reference holds exactly if `normal` does. -/
structure IsNormalIff (raw : String) (normal : Prop) : Prop where
  again : ofText (ofText raw).path = ofText raw ↔ normal
  clean : IsClean (ofText raw).path ↔ normal
  found : ∀ index : FileIndex, ofText raw ∈ index.files →
    ((∃ file, index.matchPath? (ofText raw).path = some file ∧ file.stem = (ofText raw).stem) ↔
      normal)

/-- References are normal, but for those where something comes into view that does not count. -/
theorem isNormal_iff (raw : String) : IsNormalIff raw (¬ Uncovers raw) where
  again := ofText_ofText_iff.trans isClean_ofText_iff
  clean := isClean_ofText_iff
  found _ h := (exists_matchPath?_iff h).trans (ofText_ofText_iff.trans isClean_ofText_iff)

/-- The slash hides the mark behind it, and the document is lost to its own path. -/
theorem exists_ofText_ofText_ne :
    ofText (ofText "/./a.md").path ≠ ofText "/./a.md" ∧
      ['.', '/'] <+: (ofText "/./a.md").path.toList ∧
      (FileIndex.ofList [ofText "/./a.md"]).matchPath? (ofText "/./a.md").path = none := by
  decide +kernel

end FileRef

end BoundFields
