import BoundFields.Proofs.Sync.Registry

/-!
# Lifetimes of fields

A synchronizer starts without fields, and whatever calls are made of it (`Synchronizer.Call`), it
gives its numbers in ascending order and never twice (`Registry.IsSound`). A field that is bound
stays bound as it is until it is detached (`Synchronizer.exists_remains_perform`), and once it is
detached nothing is ever reported, taken or written under its number again
(`Synchronizer.IsGone`). A whole run is summed up by `Synchronizer.isLasting_run`.
-/

set_option autoImplicit false

namespace BoundFields

/-! ## Numbers -/

namespace Registry

/-- The entries are in the order of their numbers, none of which is yet to be given. -/
structure IsSound (r : Registry) : Prop where
  ascending : r.uids.Pairwise (· < ·)
  issued : ∀ uid ∈ r.uids, uid ≤ r.issued

variable {r : Registry}

theorem isSound_empty : ({} : Registry).IsSound := ⟨List.Pairwise.nil, nofun⟩

theorem IsSound.isUnique (hr : r.IsSound) : r.entries.IsUnique :=
  hr.ascending.imp Nat.ne_of_lt

theorem IsSound.le_issued (hr : r.IsSound) {uid : Nat} {e : Entry} (he : r.get? uid = some e) :
    uid ≤ r.issued :=
  hr.issued uid (mem_uids_iff.2 ⟨e, he⟩)

/-- No entry has the number that is given next. -/
theorem IsSound.notMem_next (hr : r.IsSound) : r.issued + 1 ∉ r.uids :=
  fun hmem => absurd (hr.issued _ hmem) (Nat.not_succ_le_self _)

/-- Soundness depends on the numbers only. -/
theorem IsSound.of_uids (hr : r.IsSound) {r' : Registry} (huids : r'.uids = r.uids)
    (hissued : r'.issued = r.issued) : r'.IsSound := by
  refine ⟨?_, ?_⟩
  · rw [huids]
    exact hr.ascending
  · rw [huids, hissued]
    exact hr.issued

theorem uids_register (hr : r.IsSound) (e : Entry) :
    (r.register e).2.uids = r.uids ++ [r.issued + 1] :=
  Keyed.keys_put_of_notMem hr.notMem_next e

theorem isSound_register (hr : r.IsSound) (e : Entry) : (r.register e).2.IsSound := by
  refine ⟨?_, ?_⟩
  · rw [uids_register hr, List.pairwise_append]
    refine ⟨hr.ascending, List.pairwise_singleton _ _, ?_⟩
    intro uid huid next hnext
    obtain rfl := List.mem_singleton.1 hnext
    exact Nat.lt_succ_of_le (hr.issued uid huid)
  · rw [uids_register hr]
    intro uid huid
    rcases List.mem_append.1 huid with hold | hnew
    · exact Nat.le_succ_of_le (hr.issued uid hold)
    · exact Nat.le_of_eq (List.mem_singleton.1 hnew)

theorem isSound_unregister (hr : r.IsSound) (uid : Nat) : (r.unregister uid).IsSound := by
  have hfewer : (r.unregister uid).uids.Sublist r.uids :=
    (Keyed.eraseEntry_sublist uid r.entries.entries).map _
  refine ⟨hr.ascending.sublist hfewer, ?_⟩
  intro other hother
  exact hr.issued other (hfewer.subset hother)

end Registry

/-! ## Calls -/

namespace Synchronizer

/-- A call of a synchronizer. The store may be another one each time. -/
inductive Call where
  | attach (d : Declaration) (context : FileRef) (control : Control) (store : Store)
  | detach (uid : Nat)
  | setIndex (index : FileIndex)
  | report (change : Change)
  | edit (uid : Nat) (v : Value) (store : Store)
  | take (uid : Nat)
deriving DecidableEq, Repr

/-- The synchronizer after a call. -/
def perform (s : Synchronizer) : Call → Synchronizer
  | .attach d context control store => (s.attach d context control store).2
  | .detach uid => s.detach uid
  | .setIndex index => s.setIndex index
  | .report change => (s.onChange change).2
  | .edit uid v store => (s.onEdit uid v store).2.1
  | .take uid => (s.takePending uid).2

/-- The number that a call gives to a field. -/
def number? (s : Synchronizer) : Call → Option Nat
  | .attach d context control store => some (s.attach d context control store).1
  | _ => none

/-- The synchronizer after some calls. -/
def run (s : Synchronizer) (calls : List Call) : Synchronizer := calls.foldl perform s

/-- The numbers that some calls give to fields, one after the other. -/
def given (s : Synchronizer) : List Call → List Nat
  | [] => []
  | call :: more => (s.number? call).toList ++ (s.perform call).given more

variable {s : Synchronizer}

@[simp] theorem run_nil (s : Synchronizer) : s.run [] = s := rfl

@[simp] theorem run_cons (s : Synchronizer) (call : Call) (more : List Call) :
    s.run (call :: more) = (s.perform call).run more := rfl

theorem run_append (s : Synchronizer) (front back : List Call) :
    s.run (front ++ back) = (s.run front).run back :=
  List.foldl_append

/-- What holds before the calls and is kept up by each one holds after all of them. -/
theorem run_induction {P : Synchronizer → Prop} {calls : List Call} (hs : P s)
    (hstep : ∀ call ∈ calls, ∀ s, P s → P (s.perform call)) : P (s.run calls) := by
  induction calls generalizing s with
  | nil => exact hs
  | cons call more ih =>
    apply ih
    · exact hstep call List.mem_cons_self s hs
    · intro call' hcall'
      exact hstep call' (List.mem_cons_of_mem call hcall')

/-! ### One call -/

/-- A call makes a new field, or lets go of one, or is about fields that are there. -/
theorem perform_cases (s : Synchronizer) (call : Call) :
    (∃ d context control store, call = .attach d context control store) ∨
      (∃ uid, call = .detach uid) ∨ s.number? call = none ∧ s.KeepsFields (s.perform call) := by
  cases call with
  | attach d context control store => exact .inl ⟨d, context, control, store, rfl⟩
  | detach uid => exact .inr (.inl ⟨uid, rfl⟩)
  | setIndex index => exact .inr (.inr ⟨rfl, rfl, rfl, s.keepsFields_refl.entries⟩)
  | report change => exact .inr (.inr ⟨rfl, s.keepsFields_onChange change⟩)
  | edit uid v store => exact .inr (.inr ⟨rfl, s.keepsFields_onEdit uid v store⟩)
  | take uid => exact .inr (.inr ⟨rfl, s.keepsFields_takePending uid⟩)

theorem isSound_perform (hs : s.registry.IsSound) (call : Call) :
    (s.perform call).registry.IsSound := by
  rcases s.perform_cases call with ⟨d, context, control, store, rfl⟩ | ⟨uid, rfl⟩ | ⟨-, hkeeps⟩
  · exact Registry.isSound_register hs _
  · exact Registry.isSound_unregister hs uid
  · exact hs.of_uids hkeeps.uids hkeeps.issued

/-- A number that a call gives is the next one, and no call takes a number back. -/
theorem number?_cases (s : Synchronizer) (call : Call) :
    s.number? call = some (s.registry.issued + 1) ∧
        (s.perform call).registry.issued = s.registry.issued + 1 ∨
      s.number? call = none ∧ (s.perform call).registry.issued = s.registry.issued := by
  rcases s.perform_cases call with
    ⟨d, context, control, store, rfl⟩ | ⟨uid, rfl⟩ | ⟨hnone, hkeeps⟩
  · exact .inl ⟨rfl, rfl⟩
  · exact .inr ⟨rfl, rfl⟩
  · exact .inr ⟨hnone, hkeeps.issued⟩

/-- A field is still there after a call that does not detach it. -/
theorem exists_remains_perform (hs : s.registry.IsSound) {uid : Nat} {e : Entry}
    (he : s.registry.get? uid = some e) {call : Call} (hcall : call ≠ .detach uid) :
    ∃ e', (s.perform call).registry.get? uid = some e' ∧ e.Remains e' := by
  rcases s.perform_cases call with ⟨d, context, control, store, rfl⟩ | ⟨other, rfl⟩ | ⟨-, hkeeps⟩
  · -- The new field has a number of its own, above all that are in use.
    have hnew : s.registry.issued + 1 ≠ uid := by
      have hle := hs.le_issued he
      omega
    refine ⟨e, ?_, e.remains_refl⟩
    simp only [perform, get?_attach, if_neg hnew, he]
  · have hother : other ≠ uid := by
      intro heq
      exact hcall (congrArg Call.detach heq)
    refine ⟨e, ?_, e.remains_refl⟩
    simp only [perform, get?_detach, if_neg hother, he]
  · exact hkeeps.entries uid e he

/-! ### Fields that are gone -/

/-- A number was given, and no field has it any more. -/
structure IsDetached (s : Synchronizer) (uid : Nat) : Prop where
  issued : uid ≤ s.registry.issued
  noEntry : s.registry.get? uid = none

theorem isDetached_detach {uid : Nat} (hissued : uid ≤ s.registry.issued) :
    (s.detach uid).IsDetached uid := by
  refine ⟨hissued, ?_⟩
  rw [get?_detach]
  exact if_pos rfl

/-- No call gives a number to another field. -/
theorem isDetached_perform {uid : Nat} (h : s.IsDetached uid) (call : Call) :
    (s.perform call).IsDetached uid := by
  rcases s.perform_cases call with ⟨d, context, control, store, rfl⟩ | ⟨other, rfl⟩ | ⟨-, hkeeps⟩
  · -- The number was issued before, and the counter has not gone back since.
    have hnew : s.registry.issued + 1 ≠ uid := by
      have hle := h.issued
      omega
    refine ⟨Nat.le_succ_of_le h.issued, ?_⟩
    simp only [perform, get?_attach, if_neg hnew, h.noEntry]
  · refine ⟨h.issued, ?_⟩
    simp only [perform, get?_detach, h.noEntry, ite_self]
  · refine ⟨hkeeps.issued ▸ h.issued, ?_⟩
    rw [Registry.get?_eq_none_iff, hkeeps.uids]
    exact Registry.get?_eq_none_iff.1 h.noEntry

/-- A number leads nowhere: nothing is reported under it, taken or written, and no field is given
it. -/
structure IsGone (s : Synchronizer) (uid : Nat) : Prop where
  unreported : ∀ change, uid ∉ (s.onChange change).1
  nothingWaits : s.takePending uid = (none, s)
  unwritten : ∀ v store, s.onEdit uid v store = (.ok false, s, store)
  notGiven : ∀ d context control store, (s.attach d context control store).1 ≠ uid

theorem isGone_of_isDetached (hs : s.registry.IsSound) {uid : Nat} (h : s.IsDetached uid) :
    s.IsGone uid := by
  refine ⟨?_, takePending_of_get?_eq_none h.noEntry, ?_, ?_⟩
  · intro change hmem
    obtain ⟨e, he, -⟩ := (mem_onChange_iff hs.isUnique change uid).1 hmem
    rw [h.noEntry] at he
    cases he
  · intro v store
    unfold onEdit
    rw [h.noEntry]
  · intro d context control store hgiven
    obtain rfl : s.registry.issued + 1 = uid := hgiven
    exact Nat.not_succ_le_self _ h.issued

/-! ### Runs -/

theorem isSound_run (hs : s.registry.IsSound) (calls : List Call) :
    (s.run calls).registry.IsSound := by
  refine run_induction (P := fun s => s.registry.IsSound) hs ?_
  intro call _ s' hs'
  exact isSound_perform hs' call

/-- A field is still there after calls that do not detach it. -/
theorem exists_remains_run (hs : s.registry.IsSound) {uid : Nat} {e : Entry}
    (he : s.registry.get? uid = some e) {calls : List Call} (hcalls : .detach uid ∉ calls) :
    ∃ e', (s.run calls).registry.get? uid = some e' ∧ e.Remains e' := by
  -- Soundness is carried along, since it is what keeps a new field from taking the number.
  refine (run_induction (P := fun s => s.registry.IsSound ∧
    ∃ e', s.registry.get? uid = some e' ∧ e.Remains e') ⟨hs, e, he, e.remains_refl⟩ ?_).2
  rintro call hcall s' ⟨hs', e', he', hremains⟩
  have hother : call ≠ .detach uid := fun heq => hcalls (heq ▸ hcall)
  obtain ⟨e'', he'', hremains'⟩ := exists_remains_perform hs' he' hother
  exact ⟨isSound_perform hs' call, e'', he'', hremains.trans hremains'⟩

theorem isDetached_run {uid : Nat} (h : s.IsDetached uid) (calls : List Call) :
    (s.run calls).IsDetached uid := by
  refine run_induction (P := fun s => s.IsDetached uid) h ?_
  intro call _ s' h'
  exact isDetached_perform h' call

/-- A run takes no number back. -/
theorem issued_le_run (s : Synchronizer) (calls : List Call) :
    s.registry.issued ≤ (s.run calls).registry.issued := by
  refine run_induction (P := fun s' => s.registry.issued ≤ s'.registry.issued) (Nat.le_refl _) ?_
  intro call _ s' hle
  rcases s'.number?_cases call with ⟨-, hissued⟩ | ⟨-, hissued⟩
  · rw [hissued]
    exact Nat.le_succ_of_le hle
  · rw [hissued]
    exact hle

/-- The numbers that a run gives were not given before it. -/
theorem issued_of_mem_given {calls : List Call} {uid : Nat} (h : uid ∈ s.given calls) :
    s.registry.issued < uid ∧ uid ≤ (s.run calls).registry.issued := by
  -- Induction on the calls: the number is given by the first of them or by a later one.
  induction calls generalizing s with
  | nil => cases h
  | cons call more ih =>
    rw [run_cons]
    rcases List.mem_append.1 h with hfirst | hlater
    · rcases s.number?_cases call with ⟨hnumber, hissued⟩ | ⟨hnumber, -⟩
      · rw [hnumber, Option.toList_some, List.mem_singleton] at hfirst
        have hle := (s.perform call).issued_le_run more
        rw [hissued, ← hfirst] at hle
        exact ⟨by omega, hle⟩
      · rw [hnumber] at hfirst
        cases hfirst
    · obtain ⟨hlt, hle⟩ := ih hlater
      refine ⟨?_, hle⟩
      rcases s.number?_cases call with ⟨-, hissued⟩ | ⟨-, hissued⟩
      · omega
      · omega

/-- A run gives its numbers in ascending order. -/
theorem pairwise_given (s : Synchronizer) (calls : List Call) :
    (s.given calls).Pairwise (· < ·) := by
  induction calls generalizing s with
  | nil => exact List.Pairwise.nil
  | cons call more ih =>
    unfold given
    rw [List.pairwise_append]
    refine ⟨?_, ih _, ?_⟩
    · cases s.number? call with
      | none => exact List.Pairwise.nil
      | some uid => exact List.pairwise_singleton _ uid
    · intro uid huid later hlater
      -- The call has issued its number, and the calls behind it give greater ones.
      have hlt := (issued_of_mem_given hlater).1
      rcases s.number?_cases call with ⟨hnumber, hissued⟩ | ⟨hnumber, -⟩
      · rw [hnumber, Option.toList_some, List.mem_singleton] at huid
        omega
      · rw [hnumber] at huid
        cases huid

/-- What holds of the fields in a run, from its start to its end. -/
structure IsLasting (start : Synchronizer) (calls : List Call) : Prop where
  /-- Each number is greater than all that were given before it. -/
  ascending : (start.given calls).Pairwise (· < ·)
  /-- Once a field is bound, it stays bound to that target until it is detached. -/
  bound : ∀ front back uid e t, calls = front ++ back →
    (start.run front).registry.get? uid = some e → e.binding = .resolved t →
      .detach uid ∉ back → ∃ e', (start.run calls).registry.get? uid = some e' ∧
        e'.declaration = e.declaration ∧ e'.context = e.context ∧ e'.binding = .resolved t
  /-- Once a field that was made in the run is detached, its number leads nowhere. -/
  detached : ∀ front back uid, calls = front ++ .detach uid :: back →
    uid ∈ start.given front → (start.run calls).IsGone uid

/-- In every run of a new synchronizer fields last until they are detached, and no longer. -/
theorem isLasting_run (index : FileIndex) (policy : AmbiguityPolicy) (calls : List Call) :
    ({ index, policy } : Synchronizer).IsLasting calls := by
  have hsound (front : List Call) : (run { index, policy } front).registry.IsSound :=
    isSound_run Registry.isSound_empty front
  refine ⟨pairwise_given _ calls, ?_, ?_⟩
  · rintro front back uid e t rfl he ht hback
    obtain ⟨e', he', hremains⟩ := exists_remains_run (hsound front) he hback
    rw [run_append]
    exact ⟨e', he', hremains.declaration, hremains.context, hremains.binding ht⟩
  · rintro front back uid rfl hgiven
    have hissued := (issued_of_mem_given hgiven).2
    apply isGone_of_isDetached (hsound _)
    rw [run_append, run_cons]
    exact isDetached_run (isDetached_detach hissued) back

end Synchronizer

end BoundFields
