import BoundFields.Text.Pieces

/-!
# Pieces of texts

What is known of the places where a text is cut: at its line feeds (`chunks_append_feed`), at its
ending (`dropSuffix?_eq_some_iff`), at the first separator (`cutAt_eq_some_iff`), and at all of them
(`exists_splitOn_append`). What is put together with separators is cut into the same pieces again
(`splitOn_intercalate`).
-/

set_option autoImplicit false

namespace BoundFields.Text

/-- The chunks in front of a line feed are not changed by what stands behind it. -/
theorem chunks_append_feed (front rest : List Char) :
    chunks (front ++ '\n' :: rest) = chunks (front ++ ['\n']) ++ chunks rest := by
  induction front with
  | nil => rfl
  | cons c more ih =>
    simp only [List.cons_append, chunks, ih]
    split
    · rfl
    · cases hmore : chunks (more ++ ['\n']) with
      | nil =>
        -- There is a chunk, as there is a line feed.
        have hflat := flatten_chunks (more ++ ['\n'])
        rw [hmore, List.flatten_nil] at hflat
        exact absurd hflat.symm (List.append_ne_nil_of_right_ne_nil _ (List.cons_ne_nil _ _))
      | cons chunk others => rfl

/-- A text with an ending is what is left without it, and the ending. -/
theorem dropSuffix?_eq_some_iff {tail cs rest : List Char} :
    dropSuffix? tail cs = some rest ↔ cs = rest ++ tail := by
  simp only [dropSuffix?, Option.map_eq_some_iff, dropPrefix?_eq_some_iff]
  constructor
  · rintro ⟨front, hfront, rfl⟩
    have hreverse := congrArg List.reverse hfront
    rw [List.reverse_reverse, List.reverse_append, List.reverse_reverse] at hreverse
    exact hreverse
  · rintro rfl
    exact ⟨rest.reverse, List.reverse_append, List.reverse_reverse rest⟩

theorem dropSuffix?_eq_none_iff {tail cs : List Char} :
    dropSuffix? tail cs = none ↔ ¬ tail <:+ cs := by
  rw [Option.eq_none_iff_forall_ne_some]
  constructor
  · rintro h ⟨rest, hrest⟩
    exact h rest (dropSuffix?_eq_some_iff.2 hrest.symm)
  · intro h rest hrest
    exact h ⟨rest, (dropSuffix?_eq_some_iff.1 hrest).symm⟩

/-- A front part without a separator ends in front of the first separator. -/
theorem isPrefix_of_isPrefix_append {sep : Char} {part before behind : List Char}
    (h : part <+: before ++ sep :: behind) (hpart : sep ∉ part) : part <+: before := by
  rcases List.prefix_or_prefix_of_prefix h (List.prefix_append before (sep :: behind)) with
    hshort | ⟨rest, rfl⟩
  · exact hshort
  · rw [List.prefix_append_right_inj] at h
    cases rest with
    | nil => exact ⟨[], by simp⟩
    | cons c more =>
      obtain ⟨hc, -⟩ := List.cons_prefix_cons.1 h
      exact absurd (by simp [hc]) hpart

/-- A text is cut at the first separator. -/
theorem cutAt_append {sep : Char} {before : List Char} (h : sep ∉ before) (behind : List Char) :
    cutAt sep (before ++ sep :: behind) = some (before, behind) := by
  induction before with
  | nil => exact if_pos rfl
  | cons c more ih =>
    rw [List.mem_cons, not_or] at h
    rw [List.cons_append, cutAt, if_neg (Ne.symm h.1), ih h.2, Option.map_some]

theorem cutAt_eq_some_iff {sep : Char} {cs before behind : List Char} :
    cutAt sep cs = some (before, behind) ↔ cs = before ++ sep :: behind ∧ sep ∉ before := by
  constructor
  · intro h
    refine ⟨eq_append_of_cutAt h, ?_⟩
    induction cs generalizing before with
    | nil => cases h
    | cons c more ih =>
      rw [cutAt] at h
      split at h
      · obtain ⟨rfl, -⟩ := Prod.mk.inj (Option.some.inj h)
        exact List.not_mem_nil
      · next hc =>
        obtain ⟨⟨front, back⟩, hmore, hparts⟩ := Option.map_eq_some_iff.1 h
        obtain ⟨rfl, rfl⟩ := Prod.mk.inj hparts
        rw [List.mem_cons, not_or]
        exact ⟨Ne.symm hc, ih hmore⟩
  · rintro ⟨rfl, h⟩
    exact cutAt_append h behind

theorem not_mem_of_mem_splitOn {α : Type} [DecidableEq α] {sep : α} {cs piece : List α}
    (h : piece ∈ cs.splitOn sep) : sep ∉ piece := by
  induction cs generalizing piece with
  | nil =>
    rw [List.splitOn_nil, List.mem_singleton] at h
    rw [h]
    exact List.not_mem_nil
  | cons c cs ih =>
    rw [List.splitOn_cons_eq_if_modifyHead] at h
    split at h
    · rcases List.mem_cons.1 h with rfl | hmore
      · exact List.not_mem_nil
      · exact ih hmore
    · next hc =>
      cases hpieces : cs.splitOn sep with
      | nil => exact absurd hpieces (List.splitOn_ne_nil sep cs)
      | cons first more =>
        rw [hpieces] at h ih
        rcases List.mem_cons.1 h with rfl | hmore
        · intro hmem
          rcases List.mem_cons.1 hmem with rfl | hfirst
          · exact hc (beq_self_eq_true _)
          · exact ih List.mem_cons_self hfirst
        · exact ih (List.mem_cons_of_mem first hmore)

/-- Names that are put together with a separator are found again. -/
theorem splitOn_intercalate {joint : String} {sep : Char} (hjoint : joint.toList = [sep])
    {names : List String} (hnames : names ≠ []) (hsep : ∀ name ∈ names, sep ∉ name.toList) :
    (joint.intercalate names).toList.splitOn sep = names.map String.toList := by
  rw [String.toList_intercalate, hjoint]
  apply List.splitOn_intercalate
  · intro cs hcs
    obtain ⟨name, hname, rfl⟩ := List.mem_map.1 hcs
    exact hsep name hname
  · rw [ne_eq, List.map_eq_nil_iff]
    exact hnames

/-- A text with no separator in it that stands behind another one lengthens its last piece. -/
theorem exists_splitOn_append {sep : Char} {tail : List Char} (h : sep ∉ tail) (cs : List Char) :
    ∃ pieces last, cs.splitOn sep = pieces ++ [last] ∧
      (cs ++ tail).splitOn sep = pieces ++ [last ++ tail] := by
  induction cs with
  | nil => exact ⟨[], [], List.splitOn_nil sep, List.splitOn_eq_singleton h⟩
  | cons c more ih =>
    obtain ⟨pieces, last, hmore, htail⟩ := ih
    rw [List.cons_append, List.splitOn_cons_eq_if_modifyHead, List.splitOn_cons_eq_if_modifyHead,
      hmore, htail]
    by_cases hc : (c == sep) = true
    · exact ⟨[] :: pieces, last, if_pos hc, if_pos hc⟩
    · rw [if_neg hc, if_neg hc]
      cases pieces with
      | nil => exact ⟨[], c :: last, rfl, rfl⟩
      | cons first others => exact ⟨(c :: first) :: others, last, rfl, rfl⟩

/-- The pieces between separators are parts of the text, the first one its front part. -/
theorem splitOn_isInfix {sep : Char} {cs first : List Char} {others : List (List Char)}
    (h : cs.splitOn sep = first :: others) :
    first <+: cs ∧ ∀ piece ∈ others, piece <:+: cs := by
  induction cs generalizing first others with
  | nil =>
    obtain ⟨rfl, rfl⟩ := List.cons.inj h
    exact ⟨List.prefix_rfl, fun _ hpiece => absurd hpiece List.not_mem_nil⟩
  | cons c more ih =>
    rw [List.splitOn_cons_eq_if_modifyHead] at h
    cases hmore : more.splitOn sep with
    | nil => exact absurd hmore (List.splitOn_ne_nil sep more)
    | cons head tail =>
      obtain ⟨hhead, htail⟩ := ih hmore
      rw [hmore] at h
      split at h
      · obtain ⟨rfl, rfl⟩ := List.cons.inj h
        refine ⟨List.nil_prefix, List.forall_mem_cons.2 ⟨?_, fun piece hpiece => ?_⟩⟩
        · exact hhead.isInfix.trans (List.suffix_cons c more).isInfix
        · exact (htail piece hpiece).trans (List.suffix_cons c more).isInfix
      · obtain ⟨rfl, rfl⟩ := List.cons.inj h
        refine ⟨List.prefix_cons_inj c |>.2 hhead, fun piece hpiece => ?_⟩
        exact (htail piece hpiece).trans (List.suffix_cons c more).isInfix

end BoundFields.Text
