import BoundFields.Proofs.Target.Reference
import BoundFields.Proofs.Target.Written

/-!
# Bind targets by name

A reference that is a bare name may be meant for any document of that name, in whatever folder. What
it resolves to is told in full by `Target.resolve_bareName`: a document whose whole path is the name
comes first, and only if there is none do all documents of the name count. So a name is guessed
exactly if such a document is not the only one of the name (`Target.isUnguessed_iff`).
-/

set_option autoImplicit false

namespace BoundFields

open Text

/-! ## Names -/

/-- A reference that is a name: it has nothing in it that separates, and nothing at its ends that
does not count. -/
structure IsBareName (name : String) : Prop where
  nonempty : name ≠ ""
  plain : '/' ∉ name.toList ∧ '\\' ∉ name.toList ∧ '#' ∉ name.toList
  trimmed : trimmed name = name
  unended : ¬ FileRef.ending <:+ name.toList

/-- The documents of a name, endings aside. -/
def FileIndex.named (index : FileIndex) (name : String) : List FileRef :=
  index.files.filter (·.baseName = name)

section Name

variable {name : String}

theorem FileRef.isExplicit_eq_false_iff :
    FileRef.isExplicit name = false ↔
      '/' ∉ name.toList ∧ ¬ FileRef.ending <:+ name.toList := by
  rw [FileRef.isExplicit, Bool.or_eq_false_iff, List.contains_eq_mem, decide_eq_false_iff_not,
    Option.isSome_eq_false_iff, Option.isNone_iff_eq_none, dropSuffix?_eq_none_iff]

theorem FileRef.withoutEnding_of_unended {cs : List Char} (h : ¬ FileRef.ending <:+ cs) :
    FileRef.withoutEnding cs = cs := by
  rw [FileRef.withoutEnding, dropSuffix?_eq_none_iff.2 h, Option.getD_none]

theorem IsBareName.trim_eq (h : IsBareName name) : trim name.toList = name.toList :=
  trimmed_eq_iff.1 h.trimmed

theorem IsBareName.isReference (h : IsBareName name) : Target.IsReference name :=
  ⟨h.nonempty, h.trim_eq, h.plain.2.2⟩

theorem IsBareName.withoutEnding_eq (h : IsBareName name) :
    FileRef.withoutEnding name.toList = name.toList :=
  FileRef.withoutEnding_of_unended h.unended

/-- As a path, a name stands for itself. -/
theorem IsBareName.stem_ofText (h : IsBareName name) : (FileRef.ofText name).stem = name := by
  have hfile : FileRef.ofText name = ⟨name⟩ := by
    refine FileRef.ofText_eq_self_iff.2 ⟨h.trim_eq, h.plain.2.1, ?_, ?_⟩
    · intro hslash
      exact h.plain.1 (hslash.subset List.mem_cons_self)
    · intro hmark
      exact h.plain.1 (hmark.subset (List.mem_cons_of_mem _ List.mem_cons_self))
  rw [hfile, FileRef.stem, h.withoutEnding_eq, String.ofList_toList]

theorem IsBareName.isExplicit_eq (h : IsBareName name) : FileRef.isExplicit name = false :=
  FileRef.isExplicit_eq_false_iff.2 ⟨h.plain.1, h.unended⟩

theorem IsBareName.matchPath?_eq (h : IsBareName name) (index : FileIndex) :
    index.matchPath? name = index.files.find? (·.stem = name) := by
  rw [FileIndex.matchPath?, h.stem_ofText]

theorem IsBareName.matchName_eq (h : IsBareName name) (index : FileIndex) :
    index.matchName name = index.named name := by
  simp only [FileIndex.matchName, h.trim_eq, h.withoutEnding_eq, String.ofList_toList,
    FileIndex.named]

/-- A document whose path is the name has the name. -/
theorem IsBareName.baseName_of_stem (h : IsBareName name) {file : FileRef}
    (hstem : file.stem = name) : file.baseName = name := by
  rw [FileRef.baseName, hstem, FileRef.lastPart, List.splitOn_eq_singleton h.plain.1]
  exact String.ofList_toList

end Name

/-! ## Bind targets by name -/

namespace Target

variable {name p : String} {path : FieldPath}

/-- What a name resolves to: the first document whose path it is; else the one document of the name,
if there is just one. -/
theorem resolve_bareName (hname : IsBareName name) (hpath : FieldPath.ofText p = .ok path)
    (context : FileRef) (index : FileIndex) :
    resolve (name ++ "#" ++ p) context index .reject =
      match index.files.find? (·.stem = name), index.named name with
      | some file, _ | none, [file] => .ok ⟨file, path⟩
      | none, [] => .error (.unresolved (name ++ "#" ++ p) .noDocument)
      | none, files =>
          .error (.unresolved (name ++ "#" ++ p) (.severalDocuments (files.map (·.path)))) := by
  have hcandidates : candidates (name ++ "#" ++ p) context index =
      .ok ⟨filesOf context index (some name), path⟩ := by
    rw [candidates, split_append hname.isReference hpath]
    rfl
  rw [resolve, hcandidates]
  cases hfound : index.files.find? (·.stem = name) with
  | some file =>
    have hfiles : filesOf context index (some name) = [file] := by
      simp only [filesOf, hname.matchPath?_eq, hfound]
    rw [hfiles]
    rfl
  | none =>
    have hfiles : filesOf context index (some name) = index.named name := by
      simp only [filesOf, hname.matchPath?_eq, hfound, hname.isExplicit_eq, Bool.false_eq_true,
        if_false, hname.matchName_eq]
    rw [hfiles]
    rcases index.named name with _ | ⟨file, _ | ⟨next, more⟩⟩ <;> rfl

/-- A name is not guessed at: what it resolves to is the one document that has it, and where several
have it, they are all named in the error. -/
structure IsUnguessed (context : FileRef) (index : FileIndex) (name p : String) : Prop where
  only : ∀ t, resolve (name ++ "#" ++ p) context index .reject = .ok t →
    ∀ file, file ∈ index.named name ↔ file = t.file
  listed : ∀ first ∈ index.named name, ∀ second ∈ index.named name, first ≠ second →
    resolve (name ++ "#" ++ p) context index .reject =
      .error (.unresolved (name ++ "#" ++ p)
        (.severalDocuments ((index.named name).map (·.path))))

/-- If no document has the name for its path, all that have the name count. -/
theorem isUnguessed_of_find?_eq_none (hname : IsBareName name)
    (hpath : FieldPath.ofText p = .ok path) {context : FileRef} {index : FileIndex}
    (hnone : index.files.find? (·.stem = name) = none) : IsUnguessed context index name p := by
  have hresolve := resolve_bareName hname hpath context index
  rw [hnone] at hresolve
  constructor
  · intro t ht file
    rw [hresolve] at ht
    rcases hall : index.named name with _ | ⟨one, _ | ⟨next, more⟩⟩ <;> rw [hall] at ht
    · cases ht
    · obtain rfl := Except.ok.inj ht
      exact List.mem_singleton
    · cases ht
  · intro first hfirst second hsecond hne
    rw [hresolve]
    rcases hall : index.named name with _ | ⟨one, _ | ⟨next, more⟩⟩
    · rw [hall] at hfirst
      cases hfirst
    · rw [hall] at hfirst hsecond
      exact absurd ((List.mem_singleton.1 hfirst).trans (List.mem_singleton.1 hsecond).symm) hne
    · rfl

/-- A name is guessed exactly if it is the path of a document, but others have the name too. -/
theorem isUnguessed_iff (hname : IsBareName name) (hpath : FieldPath.ofText p = .ok path)
    (context : FileRef) (index : FileIndex) :
    IsUnguessed context index name p ↔
      ∀ file ∈ index.files, file.stem = name → ∀ other ∈ index.named name, other = file := by
  have hresolve := resolve_bareName hname hpath context index
  have hnamed : ∀ file ∈ index.files, file.stem = name → file ∈ index.named name := by
    intro file hfile hstem
    exact List.mem_filter.2 ⟨hfile, decide_eq_true (hname.baseName_of_stem hstem)⟩
  constructor
  · intro h file hfile hstem other hother
    -- Some document with this path is found first, and is the target.
    obtain ⟨first, hfirst⟩ : ∃ first, index.files.find? (·.stem = name) = some first := by
      rw [← Option.isSome_iff_exists, List.find?_isSome]
      exact ⟨file, hfile, decide_eq_true hstem⟩
    rw [hfirst] at hresolve
    rw [(h.only _ hresolve other).1 hother, (h.only _ hresolve file).1 (hnamed file hfile hstem)]
  · intro h
    cases hfirst : index.files.find? (·.stem = name) with
    | some first =>
      have hmem := List.mem_of_find?_eq_some hfirst
      have hstem : first.stem = name := by simpa using List.find?_some hfirst
      have honly := h first hmem hstem
      rw [hfirst] at hresolve
      constructor
      · intro t ht file
        obtain rfl := Except.ok.inj (hresolve.symm.trans ht)
        constructor
        · exact honly file
        · rintro rfl
          exact hnamed _ hmem hstem
      · intro a ha b hb hne
        exact absurd ((honly a ha).trans (honly b hb).symm) hne
    | none => exact isUnguessed_of_find?_eq_none hname hpath hfirst

/-- Documents of one name in two folders, and one of another name. -/
def folders : FileIndex := .ofList [⟨"archive/dup.md"⟩, ⟨"noteB.md"⟩, ⟨"projects/dup.md"⟩]

theorem isUnguessed_dup :
    IsBareName "dup" ∧ IsUnguessed ⟨"c.md"⟩ folders "dup" "x" := by
  have hname : IsBareName "dup" :=
    ⟨by decide, by decide +kernel, by decide +kernel, by decide +kernel⟩
  have hpath : FieldPath.ofText "x" = .ok ⟨["x"]⟩ := by decide +kernel
  exact ⟨hname, (isUnguessed_iff hname hpath _ _).2 (by decide +kernel)⟩

/-- The document at the top is taken, though the one in the folder has the name too. -/
theorem exists_not_isUnguessed :
    ¬ ∀ (name p : String) (path : FieldPath) (context : FileRef) (index : FileIndex),
      IsBareName name → FieldPath.ofText p = .ok path → IsUnguessed context index name p := by
  intro hall
  have hname : IsBareName "noteB" :=
    ⟨by decide, by decide +kernel, by decide +kernel, by decide +kernel⟩
  have hone := hall "noteB" "x" ⟨["x"]⟩ ⟨"c.md"⟩
    (.ofList [⟨"noteB.md"⟩, ⟨"projects/noteB.md"⟩]) hname (by decide +kernel)
  have hlisted := hone.listed ⟨"noteB.md"⟩ (by decide +kernel) ⟨"projects/noteB.md"⟩
    (by decide +kernel) (by decide)
  exact absurd hlisted (by decide +kernel)

end Target

end BoundFields
