import BoundFields.Proofs.Sync.Mounting
import BoundFields.Proofs.Sync.Notification
import BoundFields.Proofs.Target.Index

/-!
# Changes of different documents

A field that has no target, or whose target was found, hears of the changes of one document at most.
If all fields are so, changes of different documents can be reported in either order
(`Synchronizer.onChange_comm`), and a whole queue in every order that leaves the changes of each
document among themselves as they are (`IsReordering`): each is told to the same fields, and the
synchronizer ends up the same (`Synchronizer.isOrderFree_of_isSettled`). A field whose target is
still looked for may well hear of the first document that it could mean.
-/

set_option autoImplicit false

namespace BoundFields

/-! ## Reorderings -/

/-- The changes of each document are the same in both queues, and in the same order. -/
def IsReordering (changes changes' : List Change) : Prop :=
  ∀ file, changes'.filter (·.file = file) = changes.filter (·.file = file)

theorem eq_nil_of_isReordering {changes : List Change} (h : IsReordering [] changes) :
    changes = [] := by
  cases changes with
  | nil => rfl
  | cons change more =>
    have hnone := h change.file
    rw [List.filter_cons_of_pos (by simp)] at hnone
    cases hnone

/-- The first change is found behind changes of other documents only, and the others are a
reordering of what is left. -/
theorem exists_split_of_isReordering {change : Change} {more changes : List Change}
    (h : IsReordering (change :: more) changes) :
    ∃ front back, changes = front ++ change :: back ∧ (∀ c ∈ front, c.file ≠ change.file) ∧
      IsReordering more (front ++ back) := by
  have hown := h change.file
  rw [List.filter_cons_of_pos (by simp)] at hown
  obtain ⟨front, back, rfl, hfront, -, hback⟩ := List.filter_eq_cons_iff.1 hown
  have hne : ∀ c ∈ front, c.file ≠ change.file := fun c hc => by simpa using hfront c hc
  refine ⟨front, back, rfl, hne, ?_⟩
  intro file
  by_cases hfile : change.file = file
  · subst hfile
    have hnone : front.filter (·.file = change.file) = [] :=
      List.filter_eq_nil_iff.2 fun c hc => by simpa using hne c hc
    rw [List.filter_append, hnone, List.nil_append]
    exact hback
  · have hother := h file
    rw [List.filter_append, List.filter_cons_of_neg (by simpa using hfile),
      List.filter_cons_of_neg (by simpa using hfile), ← List.filter_append] at hother
    exact hother

/-! ## One entry -/

/-- The target is no longer looked for: there is none, or it was found. -/
def Binding.isSettled : Binding → Bool
  | .unresolved _ => false
  | .unbound | .resolved _ => true

namespace Entry

variable {change change' : Change}

theorem retry_of_isSettled {e : Entry} (h : e.binding.isSettled = true) (index : FileIndex)
    (policy : AmbiguityPolicy) : e.retry index policy = e := by
  apply retry_of_forall_ne
  intro cause hcause
  rw [hcause] at h
  cases h

theorem isSettled_notice {e : Entry} (h : e.binding.isSettled = true) (change : Change) :
    (e.notice change).2.binding.isSettled = true := by
  rw [(e.sameField_notice change).binding]
  exact h

/-- Of the changes of two documents an entry hears one at most. -/
theorem notice_or_notice (e : Entry) (h : change.file ≠ change'.file) :
    (∀ e' : Entry, e'.binding = e.binding → e'.notice change = (false, e')) ∨
      ∀ e' : Entry, e'.binding = e.binding → e'.notice change' = (false, e') := by
  by_cases hin : ∃ t, e.binding = .resolved t ∧ change.file = t.file
  · obtain ⟨t, ht, hfile⟩ := hin
    refine .inr fun e' he' => ?_
    apply notice_of_file_ne (he'.trans ht)
    intro hfile'
    exact h (hfile.trans hfile'.symm)
  · refine .inl fun e' he' => ?_
    apply notice_of_forall_ne
    intro t ht hfile
    exact hin ⟨t, he'.symm.trans ht, hfile⟩

/-- What an entry hears of a change does not depend on a change of another document before. -/
theorem notice_notice_fst (e : Entry) (h : change.file ≠ change'.file) :
    ((e.notice change).2.notice change').1 = (e.notice change').1 := by
  rcases e.notice_or_notice h with hfirst | hsecond
  · rw [hfirst e rfl]
  · rw [hsecond e rfl, hsecond _ (e.sameField_notice change).binding]

theorem notice_notice_comm (e : Entry) (h : change.file ≠ change'.file) :
    ((e.notice change).2.notice change').2 = ((e.notice change').2.notice change).2 := by
  rcases e.notice_or_notice h with hfirst | hsecond
  · rw [hfirst e rfl, hfirst _ (e.sameField_notice change').binding]
  · rw [hsecond e rfl, hsecond _ (e.sameField_notice change).binding]

end Entry

/-! ## All entries -/

namespace Synchronizer

variable {s : Synchronizer} {change change' : Change}

/-- No field is waiting for its target. -/
def IsSettled (s : Synchronizer) : Prop := s.registry.All fun e => e.binding.isSettled = true

instance (s : Synchronizer) : Decidable s.IsSettled :=
  inferInstanceAs (Decidable (s.registry.All _))

theorem tell_of_isSettled (s : Synchronizer) (change : Change) {e : Entry}
    (h : e.binding.isSettled = true) : s.tell change e = e.notice change := by
  unfold tell
  rw [Entry.retry_of_isSettled h]

theorem onChange_of_isSettled (hs : s.IsSettled) (change : Change) :
    s.onChange change = (s.registry.find fun e => (e.notice change).1,
      { s with
        index := s.index.insert change.file
        registry := s.registry.mapEntries fun e => (e.notice change).2 }) := by
  have hnamed : s.registry.All fun e => (s.tell change e).1 = (e.notice change).1 :=
    fun p hp => congrArg Prod.fst (s.tell_of_isSettled change (hs p hp))
  have htold : s.registry.All fun e => (s.tell change e).2 = (e.notice change).2 :=
    fun p hp => congrArg Prod.snd (s.tell_of_isSettled change (hs p hp))
  rw [onChange_eq, Registry.find_congr hnamed, Registry.mapEntries_congr htold]

theorem isSettled_onChange (hs : s.IsSettled) (change : Change) :
    (s.onChange change).2.IsSettled := by
  rw [onChange_of_isSettled hs, IsSettled, Registry.all_mapEntries]
  exact fun p hp => Entry.isSettled_notice (hs p hp) change

/-- Two changes of different documents come to the same in either order. -/
theorem onChange_comm (hs : s.IsSettled) (h : change.file ≠ change'.file) :
    ((s.onChange change).2.onChange change').2 = ((s.onChange change').2.onChange change).2 := by
  rw [onChange_of_isSettled (isSettled_onChange hs change),
    onChange_of_isSettled (isSettled_onChange hs change'), onChange_of_isSettled hs,
    onChange_of_isSettled hs]
  simp only [Registry.mapEntries_mapEntries, s.index.insert_comm change.file,
    Entry.notice_notice_comm _ h]

/-- A change names the same fields before and after a change of another document. -/
theorem onChange_fst_comm (hs : s.IsSettled) (h : change.file ≠ change'.file) :
    ((s.onChange change).2.onChange change').1 = (s.onChange change').1 := by
  rw [onChange_of_isSettled (isSettled_onChange hs change), onChange_of_isSettled hs,
    onChange_of_isSettled hs]
  simp only [Registry.find_mapEntries, Entry.notice_notice_fst _ h]

/-! ## Queues -/

/-- The synchronizer that was told some changes, one after the other. -/
def told (s : Synchronizer) (changes : List Change) : Synchronizer :=
  s.run (changes.map .report)

theorem told_cons (s : Synchronizer) (change : Change) (more : List Change) :
    s.told (change :: more) = (s.onChange change).2.told more := rfl

/-- A change can be told before all changes of other documents in front of it. -/
theorem told_toFront (hs : s.IsSettled) {front : List Change}
    (hfront : ∀ c ∈ front, c.file ≠ change.file) (back : List Change) :
    s.told (front ++ change :: back) = s.told (change :: (front ++ back)) := by
  induction front generalizing s with
  | nil => rfl
  | cons c more ih =>
    rw [List.forall_mem_cons] at hfront
    rw [List.cons_append, told_cons, ih (isSettled_onChange hs c) hfront.2, told_cons,
      onChange_comm hs hfront.1]
    rfl

/-- A reordering of the changes leaves the synchronizer that they leave. -/
theorem told_of_isReordering (hs : s.IsSettled) {changes changes' : List Change}
    (h : IsReordering changes changes') : s.told changes' = s.told changes := by
  -- Induction on the changes: the first of them is told first in the reordering too.
  induction changes generalizing s changes' with
  | nil => rw [eq_nil_of_isReordering h]
  | cons change more ih =>
    obtain ⟨front, back, rfl, hfront, hmore⟩ := exists_split_of_isReordering h
    rw [told_toFront hs hfront, told_cons, told_cons]
    exact ih (isSettled_onChange hs change) hmore

/-- The order in which changes of different documents are reported does not matter. -/
structure IsOrderFree (s : Synchronizer) : Prop where
  /-- Two changes leave the same synchronizer in either order. -/
  state : ∀ change change', change.file ≠ change'.file →
    ((s.onChange change).2.onChange change').2 = ((s.onChange change').2.onChange change).2
  /-- A change names the same fields as the first and as the second one. -/
  named : ∀ change change', change.file ≠ change'.file →
    ((s.onChange change).2.onChange change').1 = (s.onChange change').1
  /-- A queue leaves the same synchronizer in every order that keeps the order of the changes of
  each document. -/
  reordered : ∀ changes changes', IsReordering changes changes' →
    ∀ done, (Renderer.report done s changes').2 = (Renderer.report done s changes).2

theorem isOrderFree_of_isSettled (hs : s.IsSettled) : s.IsOrderFree := by
  refine ⟨fun _ _ => onChange_comm hs, fun _ _ => onChange_fst_comm hs, ?_⟩
  intro changes changes' h done
  rw [Renderer.report_eq_run, Renderer.report_eq_run]
  exact told_of_isReordering hs h

/-- Fields in two documents, both of which are known. -/
def settledFields : Synchronizer :=
  ({ index := .ofList [⟨"a.md"⟩, ⟨"b.md"⟩] } : Synchronizer).run
    [attachText "status", attachText "b#status", attachText "b#title"]

theorem isOrderFree_settledFields : settledFields.IsSettled ∧ settledFields.IsOrderFree := by
  have hsettled : settledFields.IsSettled := by decide +kernel
  exact ⟨hsettled, isOrderFree_of_isSettled hsettled⟩

-- A field that waits for its target is bound in the document that is reported first.
example :
    ((waitingFields.onChange ⟨⟨"old/later.md"⟩, .null⟩).2.onChange ⟨⟨"new/later.md"⟩, .null⟩).2 ≠
      ((waitingFields.onChange ⟨⟨"new/later.md"⟩, .null⟩).2.onChange
        ⟨⟨"old/later.md"⟩, .null⟩).2 := by decide +kernel

end Synchronizer

end BoundFields
