import BoundFields.Proofs.Ascending
import BoundFields.Target.FileIndex
import Mathlib.Data.List.Induction

/-!
# The set that an index holds

Whatever an index was made of, and whatever was put into it and taken out of it since
(`FileIndex.after`), it holds a set in the order of paths: the documents that were given or put in
and not taken out since (`FileIndex.isSortedSet_after`). So an index is told by that set
(`FileIndex.after_eq_after`). That a document may be put in twice, and two of them in either order,
holds of any list, one that is not in order included.
-/

set_option autoImplicit false

namespace BoundFields

namespace FileRef

/-- Documents are ordered as their paths are. -/
instance : IsStrictTotalOrder FileRef (· < ·) where
  irrefl file := String.lt_irrefl file.path
  trans _ _ _ := String.lt_trans
  trichotomous := by
    rintro ⟨path⟩ ⟨path'⟩ hlt hgt
    exact congrArg FileRef.mk (Std.Trichotomous.trichotomous (r := (· < ·)) path path' hlt hgt)

/-- The name that is looked for: blanks around a name, and the ending, do not count. -/
def nameOf (name : String) : String :=
  String.ofList (withoutEnding (Text.trim name.toList))

end FileRef

namespace FileIndex

theorem insert_insert (index : FileIndex) (file : FileRef) :
    (index.insert file).insert file = index.insert file :=
  congrArg FileIndex.mk (Ascending.insert_insert file index.files)

theorem insert_comm (index : FileIndex) (file file' : FileRef) :
    (index.insert file).insert file' = (index.insert file').insert file :=
  congrArg FileIndex.mk (Ascending.insert_comm file' file index.files)

theorem mem_erase {index : FileIndex} {file other : FileRef} :
    other ∈ (index.erase file).files ↔ other ∈ index.files ∧ other ≠ file := by
  rw [erase, List.mem_filter, decide_eq_true_iff]

theorem contains_iff {index : FileIndex} {file : FileRef} :
    index.contains file = true ↔ file ∈ index.files :=
  List.contains_iff_mem

theorem mem_matchName {index : FileIndex} {name : String} {file : FileRef} :
    file ∈ index.matchName name ↔ file ∈ index.files ∧ file.baseName = FileRef.nameOf name := by
  rw [matchName, List.mem_filter, decide_eq_true_iff]
  rfl

theorem mem_of_matchPath? {index : FileIndex} {reference : String} {file : FileRef}
    (h : index.matchPath? reference = some file) :
    file ∈ index.files ∧ file.stem = (FileRef.ofText reference).stem := by
  have hstem := List.find?_some h
  rw [decide_eq_true_iff] at hstem
  exact ⟨List.mem_of_find?_eq_some h, hstem⟩

/-- Where documents have the path that a reference stands for, one is found. -/
theorem exists_matchPath? {index : FileIndex} {reference : String} {file : FileRef}
    (hfile : file ∈ index.files) (hstem : file.stem = (FileRef.ofText reference).stem) :
    ∃ found, index.matchPath? reference = some found := by
  rw [← Option.isSome_iff_exists, matchPath?, List.find?_isSome]
  exact ⟨file, hfile, decide_eq_true hstem⟩

/-! ## Updates -/

/-- What can be done to an index. -/
inductive Update where
  | insert (file : FileRef)
  | erase (file : FileRef)
deriving DecidableEq, Repr

/-- The index after an update. -/
def apply (index : FileIndex) : Update → FileIndex
  | .insert file => index.insert file
  | .erase file => index.erase file

/-- The index of some documents after some updates. -/
def after (files : List FileRef) (updates : List Update) : FileIndex :=
  updates.foldl apply (ofList files)

/-- The document was there at first or was put in, and was not taken out since. -/
def IsHeld (files : List FileRef) (updates : List Update) (file : FileRef) : Prop :=
  (file ∈ files ∧ .erase file ∉ updates) ∨
    ∃ front back, updates = front ++ .insert file :: back ∧ .erase file ∉ back

variable {files : List FileRef} {updates : List Update} {file other : FileRef}

theorem after_concat (files : List FileRef) (updates : List Update) (update : Update) :
    after files (updates ++ [update]) = (after files updates).apply update := by
  rw [after, List.foldl_append]
  rfl

theorem isHeld_nil : IsHeld files [] file ↔ file ∈ files := by
  constructor
  · rintro (⟨hfile, -⟩ | ⟨front, back, hnil, -⟩)
    · exact hfile
    · exact absurd hnil.symm (List.append_ne_nil_of_right_ne_nil _ (List.cons_ne_nil _ _))
  · intro hfile
    exact .inl ⟨hfile, List.not_mem_nil⟩

/-- An update keeps what is held unless it takes it out. -/
theorem IsHeld.concat (h : IsHeld files updates file) {update : Update}
    (hupdate : .erase file ≠ update) : IsHeld files (updates ++ [update]) file := by
  rcases h with ⟨hfile, hkept⟩ | ⟨front, back, rfl, hkept⟩
  · exact .inl ⟨hfile, by simp [hkept, hupdate]⟩
  · exact .inr ⟨front, back ++ [update], by simp, by simp [hkept, hupdate]⟩

/-- What is held was held before the last update, or put in by it. -/
theorem IsHeld.of_concat {update : Update} (h : IsHeld files (updates ++ [update]) file) :
    update = .insert file ∨ .erase file ≠ update ∧ IsHeld files updates file := by
  rcases h with ⟨hfile, hkept⟩ | ⟨front, back, hparts, hkept⟩
  · rw [List.mem_append, List.mem_singleton, not_or] at hkept
    exact .inr ⟨hkept.2, .inl ⟨hfile, hkept.1⟩⟩
  · rcases List.eq_nil_or_concat back with rfl | ⟨back, last, rfl⟩
    · obtain ⟨-, hlast⟩ := List.append_inj' hparts rfl
      exact .inl (List.cons.inj hlast).1
    · rw [List.concat_eq_append, List.mem_append, List.mem_singleton, not_or] at hkept
      rw [List.concat_eq_append, ← List.cons_append, ← List.append_assoc] at hparts
      obtain ⟨hfront, hlast⟩ := List.append_inj' hparts rfl
      obtain rfl := (List.cons.inj hlast).1
      exact .inr ⟨hkept.2, .inr ⟨front, back, hfront, hkept.1⟩⟩

theorem isHeld_concat_insert :
    IsHeld files (updates ++ [.insert other]) file ↔ file = other ∨ IsHeld files updates file := by
  constructor
  · intro h
    rcases h.of_concat with heq | ⟨-, hheld⟩
    · exact .inl (Update.insert.inj heq).symm
    · exact .inr hheld
  · rintro (rfl | hheld)
    · exact .inr ⟨updates, [], rfl, List.not_mem_nil⟩
    · exact hheld.concat nofun

theorem isHeld_concat_erase :
    IsHeld files (updates ++ [.erase other]) file ↔ IsHeld files updates file ∧ file ≠ other := by
  constructor
  · intro h
    rcases h.of_concat with heq | ⟨hne, hheld⟩
    · cases heq
    · exact ⟨hheld, fun heq => hne (congrArg Update.erase heq)⟩
  · rintro ⟨hheld, hne⟩
    exact hheld.concat fun heq => hne (Update.erase.inj heq)

/-! ## One update -/

theorem pairwise_apply {index : FileIndex} (h : index.files.Pairwise (· < ·)) (update : Update) :
    (index.apply update).files.Pairwise (· < ·) := by
  cases update with
  | insert file => exact Ascending.pairwise_insert h file
  | erase file => exact h.filter _

/-! ## All updates -/

theorem pairwise_after (files : List FileRef) (updates : List Update) :
    (after files updates).files.Pairwise (· < ·) := by
  induction updates using List.reverseRecOn with
  | nil => exact Ascending.pairwise_ofList files
  | append_singleton updates update ih =>
    rw [after_concat]
    exact pairwise_apply ih update

theorem mem_after : file ∈ (after files updates).files ↔ IsHeld files updates file := by
  induction updates using List.reverseRecOn with
  | nil => exact mem_ofList.trans isHeld_nil.symm
  | append_singleton updates update ih =>
    rw [after_concat]
    cases update with
    | insert other => exact mem_insert.trans ((or_congr_right ih).trans isHeld_concat_insert.symm)
    | erase other => exact mem_erase.trans ((and_congr_left' ih).trans isHeld_concat_erase.symm)

/-- What an index was made of and how does not matter, but for what it holds. -/
theorem after_eq_after {files' : List FileRef} {updates' : List Update}
    (h : ∀ file, IsHeld files updates file ↔ IsHeld files' updates' file) :
    after files updates = after files' updates' := by
  apply congrArg FileIndex.mk
  apply Ascending.eq_of_mem_iff (pairwise_after files updates) (pairwise_after files' updates')
  intro file
  rw [mem_after, mem_after, h]

/-- The index is a set in the order of paths. It is searched by halving, and what is not found is
put where the search ended. -/
structure IsSortedSet (index : FileIndex) (held : FileRef → Prop) : Prop where
  ascending : index.files.Pairwise (· < ·)
  mem_iff : ∀ file, file ∈ index.files ↔ held file
  contains_iff : ∀ file, index.contains file = true ↔ held file
  searched : ∀ file,
    index.contains file = true ↔ ∃ place, Ascending.search file index.files = .ok place
  placed : ∀ file place, Ascending.search file index.files = .error place →
    (index.insert file).files = index.files.take place ++ file :: index.files.drop place
  insert_eq : ∀ file, held file → index.insert file = index
  erase_eq : ∀ file, ¬ held file → index.erase file = index
  named_iff : ∀ name file,
    file ∈ index.matchName name ↔ held file ∧ file.baseName = FileRef.nameOf name
  named_ascending : ∀ name, (index.matchName name).Pairwise (· < ·)

theorem isSortedSet_after (files : List FileRef) (updates : List Update) :
    IsSortedSet (after files updates) (IsHeld files updates) where
  ascending := pairwise_after files updates
  mem_iff _ := mem_after
  contains_iff _ := contains_iff.trans mem_after
  searched file := contains_iff.trans (Ascending.mem_iff_search (pairwise_after files updates) file)
  placed _ _ := Ascending.insert_of_search (pairwise_after files updates)
  insert_eq file hfile := by
    apply congrArg FileIndex.mk
    exact Ascending.insert_of_mem (pairwise_after files updates) (mem_after.2 hfile)
  erase_eq file hfile := by
    apply congrArg FileIndex.mk
    apply List.filter_eq_self.2
    rintro other hother
    apply decide_eq_true
    rintro rfl
    exact hfile (mem_after.1 hother)
  named_iff name file := mem_matchName.trans (and_congr_left' mem_after)
  named_ascending name := (pairwise_after files updates).filter _

/-- A document whose own name has the ending of document names is not found by its name. -/
theorem not_forall_mem_matchName_iff :
    ¬ ∀ (name : String) (file : FileRef),
      file ∈ (after [⟨"a.md"⟩, ⟨"a.md.md"⟩] []).matchName name ↔
        file ∈ (after [⟨"a.md"⟩, ⟨"a.md.md"⟩] []).files ∧ file.baseName = name := by
  intro hall
  have hone := (hall "a.md" ⟨"a.md.md"⟩).2 (by decide +kernel)
  exact absurd hone (by decide +kernel)

end FileIndex

end BoundFields
