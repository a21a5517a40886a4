import BoundFields.Proofs.Target.BareName
import BoundFields.Proofs.Target.Index
import BoundFields.Proofs.Target.NormalForm

/-!
# Candidates and policies

The candidates of a bind target are in the order of paths, and both policies choose among them: one
refuses unless there is just one, the other takes the least (`Target.resolve_reject_iff`,
`Target.resolve_first_iff`). Which candidates there are depends on what the index holds, whatever
its history is, and only on those documents that have the path or the name of the reference
(`Target.isStable_after`).
-/

set_option autoImplicit false

namespace BoundFields

open Text

/-! ## Documents that do not match -/

/-- The name of a document has no other characters than its path. -/
theorem FileRef.mem_of_mem_baseName {file : FileRef} {c : Char} (h : c ∈ file.baseName.toList) :
    c ∈ file.path.toList := by
  have hstem : c ∈ file.stem.toList := by
    rw [FileRef.baseName, String.toList_ofList, FileRef.lastPart] at h
    cases hparts : file.stem.toList.splitOn '/' with
    | nil => exact absurd hparts (List.splitOn_ne_nil _ _)
    | cons first others =>
      obtain ⟨hfirst, hothers⟩ := splitOn_isInfix hparts
      rw [hparts, List.getLastD_cons] at h
      have hlast : others.getLastD first ∈ first :: others := List.getLastD_mem_cons
      rcases List.mem_cons.1 hlast with hone | hmore
      · exact hfirst.subset (hone ▸ h)
      · exact (hothers _ hmore).subset h
  rw [FileRef.stem, String.toList_ofList] at hstem
  rcases FileRef.withoutEnding_cases file.path.toList with hsame | hended
  · rwa [hsame] at hstem
  · rw [hended]
    exact List.mem_append_left _ hstem

namespace FileIndex

variable {index : FileIndex} {file : FileRef} {reference : String}

theorem matchPath?_insert (h : file.stem ≠ (FileRef.ofText reference).stem) :
    (index.insert file).matchPath? reference = index.matchPath? reference := by
  apply Ascending.find?_insert
  exact decide_eq_false h

theorem matchName_insert (h : file.baseName ≠ FileRef.nameOf reference) :
    (index.insert file).matchName reference = index.matchName reference := by
  apply Ascending.filter_insert
  exact decide_eq_false h

end FileIndex

namespace Target

variable {raw : String} {context : FileRef} {index index' : FileIndex} {found : Candidates}
  {t : Target}

/-! ## Candidates -/

theorem candidates_eq_ok_iff :
    candidates raw context index = .ok found ↔ ∃ reference,
      split raw = .ok (reference, found.path) ∧ found.files = filesOf context index reference := by
  rw [candidates, Outcome.bind_eq_ok_iff]
  constructor
  · rintro ⟨⟨reference, path⟩, hsplit, hfound⟩
    obtain rfl := Except.ok.inj hfound
    exact ⟨reference, hsplit, rfl⟩
  · rintro ⟨reference, hsplit, hfiles⟩
    refine ⟨(reference, found.path), hsplit, ?_⟩
    exact congrArg (fun files => Except.ok (Candidates.mk files found.path)) hfiles.symm

/-- Candidates come from the index, unless the document of the target is meant. -/
theorem mem_filesOf {reference : Option String} {file : FileRef}
    (h : file ∈ filesOf context index reference) : file = context ∨ file ∈ index.files := by
  cases reference with
  | none => exact .inl (List.mem_singleton.1 h)
  | some reference =>
    simp only [filesOf] at h
    split at h
    · next found hfound =>
      rw [List.mem_singleton.1 h]
      exact .inr (FileIndex.mem_of_matchPath? hfound).1
    · split at h
      · cases h
      · exact .inr (FileIndex.mem_matchName.1 h).1

theorem pairwise_filesOf (h : index.files.Pairwise (· < ·)) (context : FileRef)
    (reference : Option String) : (filesOf context index reference).Pairwise (· < ·) := by
  cases reference with
  | none => exact List.pairwise_singleton _ _
  | some reference =>
    simp only [filesOf]
    split
    · exact List.pairwise_singleton _ _
    · split
      · exact List.Pairwise.nil
      · exact h.filter _

theorem mem_candidates {file : FileRef} (h : candidates raw context index = .ok found)
    (hfile : file ∈ found.files) : file = context ∨ file ∈ index.files := by
  obtain ⟨reference?, -, hfiles⟩ := candidates_eq_ok_iff.1 h
  rw [hfiles] at hfile
  exact mem_filesOf hfile

theorem pairwise_candidates (hindex : index.files.Pairwise (· < ·))
    (h : candidates raw context index = .ok found) : found.files.Pairwise (· < ·) := by
  obtain ⟨reference?, -, hfiles⟩ := candidates_eq_ok_iff.1 h
  rw [hfiles]
  exact pairwise_filesOf hindex context reference?

/-! ## Policies -/

theorem resolve_of_candidates_eq_error {error : Error}
    (h : candidates raw context index = .error error) (policy : AmbiguityPolicy) :
    resolve raw context index policy = .error error := by
  rw [resolve, h]
  rfl

/-- To refuse several candidates is to resolve where there is one. -/
theorem resolve_reject_iff (h : candidates raw context index = .ok found) :
    resolve raw context index .reject = .ok t ↔ found.files = [t.file] ∧ t.path = found.path := by
  obtain ⟨file, path⟩ := t
  rw [resolve, h]
  rcases hfiles : found.files with _ | ⟨first, _ | ⟨second, more⟩⟩ <;>
    simp [bind, Except.bind, pure, Except.pure, hfiles, eq_comm]

/-- To take the first candidate is to resolve where there is any. -/
theorem resolve_first_iff (h : candidates raw context index = .ok found) :
    resolve raw context index .first = .ok t ↔
      found.files.head? = some t.file ∧ t.path = found.path := by
  obtain ⟨file, path⟩ := t
  rw [resolve, h]
  rcases hfiles : found.files with _ | ⟨first, _ | ⟨second, more⟩⟩ <;>
    simp [bind, Except.bind, pure, Except.pure, hfiles, eq_comm]

/-- Whatever the policy is, what a target resolves to is a field of a candidate. -/
theorem exists_of_resolve {policy : AmbiguityPolicy}
    (h : resolve raw context index policy = .ok t) :
    ∃ found, candidates raw context index = .ok found ∧ t.file ∈ found.files ∧
      t.path = found.path := by
  cases hfound : candidates raw context index with
  | error error =>
    rw [resolve_of_candidates_eq_error hfound] at h
    cases h
  | ok found =>
    refine ⟨found, rfl, ?_⟩
    cases policy with
    | reject =>
      obtain ⟨hfiles, hpath⟩ := (resolve_reject_iff hfound).1 h
      exact ⟨hfiles ▸ List.mem_singleton_self _, hpath⟩
    | first =>
      obtain ⟨hhead, hpath⟩ := (resolve_first_iff hfound).1 h
      exact ⟨List.mem_of_mem_head? hhead, hpath⟩

/-! ## Documents that have nothing to do with a reference -/

/-- The document has neither the path nor the name of the reference in a bind target. -/
def IsUnrelated (raw : String) (file : FileRef) : Prop :=
  ∀ reference path, split raw = .ok (some reference, path) →
    file.stem ≠ (FileRef.ofText reference).stem ∧
      file.baseName ≠ (FileRef.ofText reference).baseName

/-- A reference that is not a path is a name, but for a backslash in it. -/
theorem IsReference.isBareName {reference : String} (h : IsReference reference)
    (hexplicit : FileRef.isExplicit reference = false) (hback : '\\' ∉ reference.toList) :
    IsBareName reference := by
  obtain ⟨hslash, hended⟩ := FileRef.isExplicit_eq_false_iff.1 hexplicit
  exact ⟨h.nonempty, ⟨hslash, hback, h.hashless⟩, trimmed_eq_iff.2 h.trimmed, hended⟩

/-- The name that is looked for is the whole reference. -/
theorem IsReference.nameOf_eq {reference : String} (h : IsReference reference)
    (hexplicit : FileRef.isExplicit reference = false) : FileRef.nameOf reference = reference := by
  obtain ⟨-, hended⟩ := FileRef.isExplicit_eq_false_iff.1 hexplicit
  rw [FileRef.nameOf, h.trimmed, FileRef.withoutEnding_of_unended hended, String.ofList_toList]

/-- A document of another name than the reference is not among those of the name looked for. -/
theorem IsReference.baseName_ne {reference p : String} (h : IsReference reference)
    (hexplicit : FileRef.isExplicit reference = false)
    (hname : (FileRef.ofText p).baseName ≠ (FileRef.ofText reference).baseName) :
    (FileRef.ofText p).baseName ≠ FileRef.nameOf reference := by
  rw [h.nameOf_eq hexplicit]
  intro heq
  -- As a path, a reference with a backslash in it would have another name: but no document has one.
  have hback : '\\' ∉ reference.toList := by
    intro hmem
    rw [← heq] at hmem
    exact FileRef.not_mem_ofText p (FileRef.mem_of_mem_baseName hmem)
  have hbare := h.isBareName hexplicit hback
  exact hname (heq.trans (hbare.baseName_of_stem hbare.stem_ofText).symm)

/-- A document that has neither the path nor the name of a reference is not meant by it. -/
theorem filesOf_insert {reference p : String} (h : IsReference reference)
    (hstem : (FileRef.ofText p).stem ≠ (FileRef.ofText reference).stem)
    (hname : (FileRef.ofText p).baseName ≠ (FileRef.ofText reference).baseName) :
    filesOf context (index.insert (FileRef.ofText p)) (some reference) =
      filesOf context index (some reference) := by
  simp only [filesOf, FileIndex.matchPath?_insert hstem]
  cases index.matchPath? reference with
  | some file => rfl
  | none =>
    cases hexplicit : FileRef.isExplicit reference with
    | true => rfl
    | false => exact FileIndex.matchName_insert (h.baseName_ne hexplicit hname)

/-! ## The answers of an index -/

/-- Two indexes have the same candidates for a bind target, and it resolves to the same. -/
structure AnswersAlike (raw : String) (context : FileRef) (index index' : FileIndex) : Prop where
  candidates_eq : candidates raw context index = candidates raw context index'
  resolve_eq : ∀ policy, resolve raw context index policy = resolve raw context index' policy

theorem answersAlike_of_candidates
    (h : candidates raw context index = candidates raw context index') :
    AnswersAlike raw context index index' :=
  ⟨h, fun policy => by rw [resolve, resolve, h]⟩

theorem answersAlike_insert {p : String} (h : IsUnrelated raw (FileRef.ofText p)) :
    AnswersAlike raw context (index.insert (FileRef.ofText p)) index := by
  apply answersAlike_of_candidates
  rw [candidates, candidates]
  -- How a bind target is split has nothing to do with the index.
  cases hsplit : split raw with
  | error error => rfl
  | ok parts =>
    obtain ⟨reference?, path⟩ := parts
    have hfiles : filesOf context (index.insert (FileRef.ofText p)) reference? =
        filesOf context index reference? := by
      cases reference? with
      | none => rfl
      | some reference =>
        obtain ⟨hstem, hname⟩ := h reference path hsplit
        exact filesOf_insert ((isCut_of_split hsplit).2 reference rfl) hstem hname
    exact congrArg (fun files => Except.ok (Candidates.mk files path)) hfiles

/-! ## Consistent policies -/

/-- What the policies make of some candidates: there may be one only, or the least is taken. -/
structure ChoosesAmong (raw : String) (context : FileRef) (index : FileIndex)
    (found : Candidates) : Prop where
  ascending : found.files.Pairwise (· < ·)
  known : ∀ file ∈ found.files, file = context ∨ file ∈ index.files
  reject_iff : (∃ t, resolve raw context index .reject = .ok t) ↔ found.files.length = 1
  first_iff : (∃ t, resolve raw context index .first = .ok t) ↔ found.files ≠ []
  least : ∀ t, resolve raw context index .first = .ok t → t.path = found.path ∧
    t.file ∈ found.files ∧ ∀ file ∈ found.files, file = t.file ∨ t.file < file

/-- Both policies fail as the candidates do, choose among the candidates that there are, and never
mean two different fields. -/
structure IsConsistent (raw : String) (context : FileRef) (index : FileIndex) : Prop where
  failed : ∀ error, candidates raw context index = .error error →
    ∀ policy, resolve raw context index policy = .error error
  chooses : ∀ found, candidates raw context index = .ok found →
    ChoosesAmong raw context index found
  agree : ∀ t, resolve raw context index .reject = .ok t →
    resolve raw context index .first = .ok t

theorem choosesAmong (hindex : index.files.Pairwise (· < ·))
    (h : candidates raw context index = .ok found) : ChoosesAmong raw context index found where
  ascending := pairwise_candidates hindex h
  known _ := mem_candidates h
  reject_iff := by
    rw [List.length_eq_one_iff]
    constructor
    · rintro ⟨t, ht⟩
      exact ⟨t.file, ((resolve_reject_iff h).1 ht).1⟩
    · rintro ⟨file, hfile⟩
      exact ⟨⟨file, found.path⟩, (resolve_reject_iff h).2 ⟨hfile, rfl⟩⟩
  first_iff := by
    constructor
    · rintro ⟨t, ht⟩ hnone
      have hhead := ((resolve_first_iff h).1 ht).1
      rw [hnone] at hhead
      cases hhead
    · intro hsome
      obtain ⟨file, more, hmore⟩ := List.exists_cons_of_ne_nil hsome
      exact ⟨⟨file, found.path⟩, (resolve_first_iff h).2 ⟨hmore ▸ rfl, rfl⟩⟩
  least t ht := by
    obtain ⟨hhead, hpath⟩ := (resolve_first_iff h).1 ht
    obtain ⟨more, hmore⟩ := List.head?_eq_some_iff.1 hhead
    -- The first of an ascending list is less than all that come after it.
    have hascending := pairwise_candidates hindex h
    rw [hmore] at hascending ⊢
    refine ⟨hpath, List.mem_cons_self, ?_⟩
    intro file hfile
    exact (List.mem_cons.1 hfile).imp_right ((List.pairwise_cons.1 hascending).1 file)

theorem isConsistent (hindex : index.files.Pairwise (· < ·)) : IsConsistent raw context index where
  failed _ := resolve_of_candidates_eq_error
  chooses _ := choosesAmong hindex
  agree t ht := by
    obtain ⟨found, hfound, -⟩ := exists_of_resolve ht
    obtain ⟨hfiles, hpath⟩ := (resolve_reject_iff hfound).1 ht
    exact (resolve_first_iff hfound).2 ⟨congrArg List.head? hfiles, hpath⟩

/-- The policies are consistent for the index of some documents after some updates. What a bind
target means is told by the documents that the index holds, and of those by the ones alone that have
to do with the reference. -/
structure IsStable (raw : String) (context : FileRef) (files : List FileRef)
    (updates : List FileIndex.Update) : Prop where
  consistent : IsConsistent raw context (FileIndex.after files updates)
  ofSet : ∀ files' updates',
    (∀ file, FileIndex.IsHeld files updates file ↔ FileIndex.IsHeld files' updates' file) →
      AnswersAlike raw context (FileIndex.after files updates) (FileIndex.after files' updates')
  unrelated : ∀ p, IsUnrelated raw (FileRef.ofText p) →
    AnswersAlike raw context ((FileIndex.after files updates).insert (FileRef.ofText p))
      (FileIndex.after files updates)

theorem isStable_after (raw : String) (context : FileRef) (files : List FileRef)
    (updates : List FileIndex.Update) : IsStable raw context files updates where
  consistent := isConsistent (FileIndex.pairwise_after files updates)
  ofSet files' updates' h := by
    rw [FileIndex.after_eq_after h]
    exact answersAlike_of_candidates rfl
  unrelated _ := answersAlike_insert

end Target

end BoundFields
