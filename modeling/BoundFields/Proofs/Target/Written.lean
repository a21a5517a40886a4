import BoundFields.Proofs.Outcome
import BoundFields.Proofs.Text.Pieces
import BoundFields.Proofs.Text.Trim
import BoundFields.Target.Basic

/-!
# Bind targets as they are written

A field path is read back from its text exactly if its segments are what a text can be cut into
(`FieldPath.ofText_text_iff`), as those of every path that was read are. A reference and a field
path that are written with a hash in between are told apart again (`Target.split_append`) if the
reference is one that can be found in front of a hash, as it is in every bind target
(`Target.isCut_of_split`).
-/

set_option autoImplicit false

namespace BoundFields

open Text

/-! ## Field paths -/

namespace FieldPath

/-- The segments are what a text can be cut into. -/
structure IsCut (path : FieldPath) : Prop where
  nonempty : path.segments ≠ []
  filled : ∀ segment ∈ path.segments, segment ≠ ""
  pointless : ∀ segment ∈ path.segments, '.' ∉ segment.toList
  trimmed : ∀ segment ∈ path.segments, trim segment.toList = segment.toList

variable {raw : String} {path : FieldPath}

theorem ofText_ok_iff :
    ofText raw = .ok path ↔
      path.segments = (raw.toList.splitOn '.').map (fun piece => String.ofList (trim piece)) ∧
        ∀ segment ∈ path.segments, segment ≠ "" := by
  let segments := (raw.toList.splitOn '.').map fun piece => String.ofList (trim piece)
  have hread : ofText raw = if segments.any (·.isEmpty) then
      .error (.unresolved raw .emptySegment) else .ok ⟨segments⟩ := rfl
  have hany : segments.any (·.isEmpty) = true ↔ ¬ ∀ segment ∈ segments, segment ≠ "" := by simp
  rw [hread]
  split
  · next hempty =>
    refine ⟨nofun, ?_⟩
    rintro ⟨hsegments, hfilled⟩
    rw [hsegments] at hfilled
    exact absurd hfilled (hany.1 hempty)
  · next hempty =>
    rw [Except.ok.injEq]
    constructor
    · rintro rfl
      exact ⟨rfl, not_not.1 fun h => hempty (hany.2 h)⟩
    · rintro ⟨hsegments, -⟩
      exact congrArg FieldPath.mk hsegments.symm

/-- Blanks behind a field path do not count. -/
theorem ofText_trimEnd (h : ofText raw = .ok path) :
    ofText (String.ofList (trimEnd raw.toList)) = .ok path := by
  obtain ⟨blanks, hblanks, hraw⟩ := exists_eq_trimEnd raw.toList
  have hpoint : '.' ∉ blanks := by
    intro hmem
    exact absurd (List.all_eq_true.1 hblanks '.' hmem) (by decide)
  obtain ⟨pieces, last, hshort, hlong⟩ := exists_splitOn_append hpoint (trimEnd raw.toList)
  rw [← hraw] at hlong
  rw [ofText_ok_iff] at h ⊢
  rw [hlong] at h
  rw [String.toList_ofList, hshort]
  simpa only [List.map_append, List.map_cons, List.map_nil, trim_append_blanks hblanks] using h

theorem isCut_of_ofText (h : ofText raw = .ok path) : path.IsCut := by
  obtain ⟨hsegments, hfilled⟩ := ofText_ok_iff.1 h
  have hpieces : ∀ segment ∈ path.segments,
      ∃ piece ∈ raw.toList.splitOn '.', String.ofList (trim piece) = segment := by
    intro segment hsegment
    rw [hsegments] at hsegment
    exact List.mem_map.1 hsegment
  refine ⟨?_, hfilled, ?_, ?_⟩
  · rw [hsegments, ne_eq, List.map_eq_nil_iff]
    exact List.splitOn_ne_nil '.' raw.toList
  · intro segment hsegment hpoint
    obtain ⟨piece, hpiece, rfl⟩ := hpieces segment hsegment
    rw [String.toList_ofList] at hpoint
    obtain ⟨front, back, -, -, hparts⟩ := exists_eq_trim piece
    apply not_mem_of_mem_splitOn hpiece
    rw [hparts]
    exact List.mem_append_left _ (List.mem_append_right _ hpoint)
  · intro segment hsegment
    obtain ⟨piece, -, rfl⟩ := hpieces segment hsegment
    rw [String.toList_ofList, trim_trim]

/-- A field path is read back from its text exactly if it can be read at all. -/
theorem ofText_text_iff : ofText path.text = .ok path ↔ path.IsCut := by
  constructor
  · exact isCut_of_ofText
  · intro h
    refine ofText_ok_iff.2 ⟨?_, h.filled⟩
    have hsame : ∀ segment ∈ path.segments,
        String.ofList (trim segment.toList) = id segment := by
      intro segment hsegment
      rw [h.trimmed segment hsegment, String.ofList_toList]
      rfl
    rw [text, splitOn_intercalate rfl h.nonempty h.pointless, List.map_map]
    exact ((List.map_congr_left hsame).trans (List.map_id _)).symm

end FieldPath

/-! ## References in front of a hash -/

namespace Target

/-- What a bind target can have in front of its hash. -/
structure IsReference (reference : String) : Prop where
  nonempty : reference ≠ ""
  trimmed : trim reference.toList = reference.toList
  hashless : '#' ∉ reference.toList

variable {raw reference p : String} {path : FieldPath}

/-- A reference starts with a character that is no blank. -/
theorem IsReference.exists_cons (h : IsReference reference) :
    ∃ c rest, reference.toList = c :: rest ∧ isBlank c = false := by
  cases hcs : reference.toList with
  | nil => exact absurd (String.toList_eq_nil_iff.1 hcs) h.nonempty
  | cons c rest => exact ⟨c, rest, rfl, isBlank_head_trim (h.trimmed.trans hcs)⟩

/-- A reference, a hash and a field path are told apart again. -/
theorem split_append (h : IsReference reference) (hpath : FieldPath.ofText p = .ok path) :
    split (reference ++ "#" ++ p) = .ok (some reference, path) := by
  obtain ⟨c, rest, hcs, hc⟩ := h.exists_cons
  -- The reference starts with no blank, and the hash is none: only the end of the path is trimmed.
  have htrim : trim (reference ++ "#" ++ p).toList =
      reference.toList ++ '#' :: trimEnd p.toList := by
    have hraw : (reference ++ "#" ++ p).toList = reference.toList ++ '#' :: p.toList := by
      simp only [String.toList_append, List.append_assoc]
      rfl
    rw [hraw, trim, hcs, List.cons_append, trimStart_cons_of_not_blank hc, ← List.cons_append,
      trimEnd_append_cons (by decide)]
  have hnonempty : reference.toList.isEmpty = false := by
    rw [hcs]
    rfl
  simp only [split, htrim, cutAt_append h.hashless, h.trimmed, hnonempty, Bool.false_eq_true,
    if_false, FieldPath.ofText_trimEnd hpath, String.ofList_toList]
  rfl

/-- What a bind target is split into could be written as one. -/
theorem isCut_of_split {reference? : Option String} (h : split raw = .ok (reference?, path)) :
    path.IsCut ∧ ∀ reference ∈ reference?, IsReference reference := by
  simp only [split] at h
  split at h
  · next file rest hcut =>
    split at h
    · cases h
    · next hempty =>
      obtain ⟨path', hpath', hparts⟩ := Outcome.map_eq_ok_iff.1 h
      obtain ⟨rfl, rfl⟩ := Prod.mk.inj hparts
      refine ⟨FieldPath.isCut_of_ofText hpath', ?_⟩
      rintro reference hreference
      obtain rfl := Option.some.inj hreference
      refine ⟨?_, ?_, ?_⟩
      · rw [ne_eq, ← String.toList_eq_nil_iff, String.toList_ofList, ← List.isEmpty_iff]
        exact hempty
      · rw [String.toList_ofList, trim_trim]
      · obtain ⟨front, back, -, -, hfile⟩ := exists_eq_trim file
        intro hhash
        rw [String.toList_ofList] at hhash
        apply (cutAt_eq_some_iff.1 hcut).2
        rw [hfile]
        exact List.mem_append_left _ (List.mem_append_right _ hhash)
  · obtain ⟨path', hpath', hparts⟩ := Outcome.map_eq_ok_iff.1 h
    obtain ⟨rfl, rfl⟩ := Prod.mk.inj hparts
    exact ⟨FieldPath.isCut_of_ofText hpath', nofun⟩

end Target

end BoundFields
