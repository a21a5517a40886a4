import BoundFields.Proofs.Control.Accepted
import BoundFields.Proofs.Sync.Session

/-!
# Edits are read back

What a mounted control has made of a value it keeps as it is when it is given that again
(`Control.IsStable`), and what an edit of a bound field has made of a value is what the document
holds afterwards, what the entry knows, and what one new change reports (`Edited.IsReadBack`).
-/

set_option autoImplicit false

namespace BoundFields

/-! ## Controls -/

namespace Control

/-- A control that keeps what it made of a value. -/
structure IsStable (c : Control) : Prop where
  /-- Given what it has made of a value, the control stays as it is, and so does its view. -/
  keeps : ∀ v set w, c.set v = .ok set → set.value = .ok w → set.set w = .ok set
  /-- It makes something of every value but of a date that it cannot write. -/
  returns : ∀ v, (∃ w, c.Stores v w) ∨
    ∃ format date, v.asDate? format = some date ∧ date.write? format = none ∧
      c.set v = .error (.unwritableDate format)

end Control

theorem Control.isStable_of_isLive {c : Control} (hc : c.IsLive) (hdates : c.role.RereadsItsDates) :
    c.IsStable := by
  have hnormal := Role.storesNormalForms (hc.role.keepsDefault hdates) hdates
  refine ⟨?_, ?_⟩
  · intro v set w hset hvalue
    rw [set_of_isMounted hc.isMounted] at hset
    obtain ⟨stored, haccept, rfl⟩ := Outcome.map_eq_ok_iff.1 hset
    have hmounted : ({ c with current := stored } : Control).isMounted = true := hc.isMounted
    rw [value_of_isMounted hmounted] at hvalue
    obtain rfl : stored = w := Except.ok.inj hvalue
    rw [set_of_isMounted hmounted]
    exact Outcome.map_eq_ok_iff.2 ⟨stored, hnormal v stored haccept, rfl⟩
  · intro v
    cases haccept : c.role.accept v with
    | ok stored => exact .inl ⟨stored, (stores_iff hc.isMounted).2 haccept⟩
    | error fault =>
      obtain ⟨format, date, hdate, hwrite, rfl⟩ := Role.exists_date_of_accept_eq_error haccept
      refine .inr ⟨format, date, hdate, hwrite, ?_⟩
      rw [set_of_isMounted hc.isMounted, haccept]
      rfl

/-! ## Edits -/

/-- An edit of a field that is bound to `t` has made `w` of its value: the field has it, the
document holds it, the entry `e` knows it and nothing else waits for the field, and the store has
one change more to report than `before`. -/
structure Edited.IsReadBack (edited : Edited) (t : Target) (before : Store) (w : Value)
    (e : Entry) : Prop where
  shown : edited.field.control.value = .ok w
  stored : edited.store.read? t = some w
  entry : edited.renderer.sync.registry.get? edited.field.uid = some e
  known : e.lastKnown = w
  nothingWaits : e.mailbox.isEmpty = true
  queued : ∃ change, change.file = t.file ∧ edited.store.pending = before.pending ++ [change]

namespace Renderer

variable {r : Renderer} {field : LiveField} {v : Value} {store : Store}

theorem isReadBack_of_edit {e : Entry} {t : Target} (he : r.sync.registry.get? field.uid = some e)
    (ht : e.binding = .resolved t) (h : (r.edit field v store).outcome = .ok ()) :
    ∃ w e', (r.edit field v store).IsReadBack t store w e' := by
  obtain ⟨hmounted, w, haccept⟩ := exists_accept_of_edit h
  rw [edit_of_accept hmounted haccept] at h ⊢
  rcases r.sync.onEdit_cases field.uid w store with
    ⟨-, hunbound⟩ | ⟨own, t', hown, ht', ⟨root, hroot, hedit⟩ | ⟨error, hedit⟩⟩
  · -- The entry is bound, so that the edit is not passed over.
    have hnone := hunbound e he
    rw [Entry.target?_eq_some_iff.2 ht] at hnone
    cases hnone
  · obtain rfl := Option.some.inj (he.symm.trans hown)
    obtain rfl := Binding.resolved.inj (ht.symm.trans ht')
    rw [hedit]
    refine ⟨w, e.wrote w, if_pos hmounted, ?_, ?_, rfl, rfl, _, rfl, rfl⟩
    · rw [Store.read?_replace, if_pos rfl]
      exact hroot
    · exact (Registry.get?_set ..).trans (if_pos rfl)
  · rw [hedit] at h
    cases h

/-- The controls of accepted declarations keep what they made of a value, dates if their format
reads them back; and an edit that succeeds has left what the control made of it everywhere. -/
theorem isStable_and_isReadBack :
    (∀ c : Control, c.IsLive → c.role.RereadsItsDates → c.IsStable) ∧
      ∀ (r : Renderer) (field : LiveField) (v : Value) (store : Store) (e : Entry) (t : Target),
        r.sync.registry.get? field.uid = some e → e.binding = .resolved t →
          (r.edit field v store).outcome = .ok () →
            ∃ w e', (r.edit field v store).IsReadBack t store w e' := by
  refine ⟨fun c => Control.isStable_of_isLive, ?_⟩
  intro r field v store e t he ht h
  exact isReadBack_of_edit he ht h

/-- The control of a date in the default format, and an edit that gives it another date. -/
theorem isStable_and_isReadBack_due :
    (Session.dueControl "2024-06-01").IsStable ∧
      ∃ w e, (Session.dueLive.renderer.edit (Session.dueHeld "2024-06-01" []).field
        (.string "2024-6-2") Session.dueLive.store).IsReadBack Session.dueTarget
          Session.dueLive.store w e := by
  have hread : ({} : Parser).read "INPUT[date:due]" =
      .ok ⟨.date, [], true, some "due", none⟩ := by
    decide +kernel
  have hrole : (Session.dueControl "2024-06-01").role.IsAccepted :=
    ⟨_, defaultDateFormat, ⟨{}, ⟨{}, [], rfl⟩, .inl ⟨_, hread⟩⟩, by decide +kernel⟩
  obtain ⟨hstable, hreadBack⟩ := isStable_and_isReadBack
  refine ⟨hstable _ ⟨rfl, hrole⟩ rereadsDates_default, hreadBack _ _ _ _ _ _ rfl rfl ?_⟩
  decide +kernel

end Renderer

end BoundFields
