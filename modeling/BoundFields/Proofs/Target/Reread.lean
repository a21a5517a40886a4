import BoundFields.Proofs.Target.Policy

/-!
# Targets read again

Where documents can be written in a bind target as they are (`FileIndex.IsLegible`), what a target
is written as means that target, wherever it is read (`Target.isReread`).
-/

set_option autoImplicit false

namespace BoundFields

open Text

/-! ## Documents in a text -/

/-- A path with the ending of document names is told by what is in front of it. -/
theorem FileRef.eq_of_stem {file other : FileRef} (h : FileRef.ending <:+ file.path.toList)
    (h' : FileRef.ending <:+ other.path.toList) (hstem : file.stem = other.stem) :
    file = other := by
  have hparts {ref : FileRef} (href : FileRef.ending <:+ ref.path.toList) :
      ref.path.toList = ref.stem.toList ++ FileRef.ending := by
    obtain ⟨front, hfront⟩ := href
    rw [FileRef.stem, FileRef.withoutEnding, dropSuffix?_eq_some_iff.2 hfront.symm,
      Option.getD_some, String.toList_ofList, hfront]
  apply congrArg FileRef.mk
  rw [← String.toList_inj, hparts h, hparts h', hstem]

/-- Documents are known by their paths, which can stand in front of a hash as they are. -/
structure FileIndex.IsLegible (index : FileIndex) : Prop where
  ended : ∀ file ∈ index.files, FileRef.ending <:+ file.path.toList
  own : ∀ file ∈ index.files, FileRef.ofText file.path = file
  hashless : ∀ file ∈ index.files, '#' ∉ file.path.toList

namespace FileIndex

variable {index : FileIndex} {file : FileRef}

theorem IsLegible.isReference (h : index.IsLegible) (hfile : file ∈ index.files) :
    Target.IsReference file.path where
  nonempty := by
    intro hnone
    have hended := h.ended file hfile
    rw [hnone] at hended
    exact absurd hended (by decide)
  trimmed := (FileRef.ofText_eq_self_iff.1 (h.own file hfile)).1
  hashless := h.hashless file hfile

theorem IsLegible.matchPath?_path (h : index.IsLegible) (hfile : file ∈ index.files) :
    index.matchPath? file.path = some file := by
  have hown := h.own file hfile
  obtain ⟨found, hfound⟩ := exists_matchPath? hfile (congrArg FileRef.stem hown.symm)
  obtain ⟨hmem, hstem⟩ := mem_of_matchPath? hfound
  rw [hown] at hstem
  rw [hfound, FileRef.eq_of_stem (h.ended found hmem) (h.ended file hfile) hstem]

end FileIndex

/-! ## Targets -/

namespace Target

variable {index : FileIndex} {raw : String} {context : FileRef} {policy : AmbiguityPolicy}
  {t : Target}

/-- The text of a target means the target, in whatever document it is read. -/
structure IsReread (index : FileIndex) (t : Target) : Prop where
  split_text : split t.text = .ok (some t.file.path, t.path)
  resolve_text : ∀ context, resolve t.text context index .reject = .ok t

theorem isReread_of_mem (h : index.IsLegible) (hfile : t.file ∈ index.files)
    (hpath : t.path.IsCut) : IsReread index t := by
  have hsplit : split t.text = .ok (some t.file.path, t.path) :=
    split_append (h.isReference hfile) (FieldPath.ofText_text_iff.2 hpath)
  refine ⟨hsplit, ?_⟩
  intro context
  have hfiles : filesOf context index (some t.file.path) = [t.file] := by
    simp only [filesOf, h.matchPath?_path hfile]
  have hfound : candidates t.text context index = .ok ⟨[t.file], t.path⟩ :=
    candidates_eq_ok_iff.2 ⟨some t.file.path, hsplit, hfiles.symm⟩
  exact (resolve_reject_iff hfound).2 ⟨rfl, rfl⟩

theorem isReread_of_resolve (h : index.IsLegible) (hcontext : context ∈ index.files)
    (ht : resolve raw context index policy = .ok t) : IsReread index t := by
  obtain ⟨found, hfound, hfile, hpath⟩ := exists_of_resolve ht
  apply isReread_of_mem h
  · rcases mem_candidates hfound hfile with hsame | hmem
    · rwa [hsame]
    · exact hmem
  · obtain ⟨reference?, hsplit, -⟩ := candidates_eq_ok_iff.1 hfound
    rw [hpath]
    exact (isCut_of_split hsplit).1

/-- What is written is what was meant: the fields that were read, and the targets they are in. -/
theorem isReread (raw : String) :
    (∀ path, FieldPath.ofText raw = .ok path → FieldPath.ofText path.text = .ok path) ∧
      ∀ (context : FileRef) (index : FileIndex) (policy : AmbiguityPolicy) (t : Target),
        index.IsLegible → context ∈ index.files → resolve raw context index policy = .ok t →
          IsReread index t := by
  constructor
  · intro path hpath
    exact FieldPath.ofText_text_iff.2 (FieldPath.isCut_of_ofText hpath)
  · intro context index policy t hindex hcontext ht
    exact isReread_of_resolve hindex hcontext ht

/-- The first of two documents of a name, and a path with blanks in it. -/
theorem isReread_dup :
    resolve " dup # a b . c" ⟨"noteB.md"⟩ folders .first =
        .ok ⟨⟨"archive/dup.md"⟩, ⟨["a b", "c"]⟩⟩ ∧
      IsReread folders ⟨⟨"archive/dup.md"⟩, ⟨["a b", "c"]⟩⟩ := by
  have hfolders : folders.IsLegible :=
    ⟨by decide +kernel, by decide +kernel, by decide +kernel⟩
  have hresolve : resolve " dup # a b . c" ⟨"noteB.md"⟩ folders .first =
      .ok ⟨⟨"archive/dup.md"⟩, ⟨["a b", "c"]⟩⟩ := by
    decide +kernel
  exact ⟨hresolve, (isReread " dup # a b . c").2 _ _ _ _ hfolders (by decide +kernel) hresolve⟩

end Target

end BoundFields
