import BoundFields.Sync.Renderer
import BoundFields.Proofs.Control.NormalForm
import BoundFields.Proofs.Sync.Registry

/-!
# What the renderer does

Every operation of the renderer by its outcome. Setting a mounted control fails only where a date
cannot be written, so that a text is either refused without a trace or becomes a field whose control
shows the first value of its entry (`Renderer.render_cases`). An edit goes through the control to
the synchronizer (`Renderer.edit_of_accept`).
-/

set_option autoImplicit false

namespace BoundFields

/-! ## Controls -/

/-- The field with a value that its control stored. -/
def LiveField.showing (field : LiveField) (stored : Value) : LiveField :=
  { field with
    control := { field.control with current := stored }
    view := ({ field.control with current := stored } : Control).view }

theorem LiveField.set_of_isMounted {field : LiveField} (h : field.control.isMounted = true)
    (v : Value) : field.set v = (field.control.role.accept v).map field.showing := by
  unfold LiveField.set
  rw [Control.set_of_isMounted h]
  cases field.control.role.accept v with
  | error fault => rfl
  | ok stored => rfl

/-- What keeps a value from being stored is a date that was read from it and cannot be written. -/
theorem Role.exists_date_of_accept_eq_error {role : Role} {v : Value} {fault : Fault}
    (h : role.accept v = .error fault) :
    ∃ format date, v.asDate? format = some date ∧ date.write? format = none ∧
      fault = .unwritableDate format := by
  cases role with
  | date format min max default =>
    unfold accept at h
    simp only at h
    cases hdate : v.asDate? format with
    | none =>
      rw [hdate] at h
      cases h
    | some date =>
      rw [hdate] at h
      cases hwrite : date.write? format with
      | some text => simp [writeDate, hwrite, Except.map] at h
      | none =>
        refine ⟨format, date, hdate, hwrite, ?_⟩
        simpa [writeDate, hwrite, Except.map] using h.symm
  | multiSelect options default =>
    unfold accept at h
    simp only at h
    split at h <;> cases h
  | toggle | slider | text | select | time => cases h

/-- The only fault of a role is a date that cannot be written. -/
theorem Role.exists_of_accept_eq_error {role : Role} {v : Value} {fault : Fault}
    (h : role.accept v = .error fault) : ∃ format, fault = .unwritableDate format := by
  obtain ⟨format, -, -, -, hfault⟩ := exists_date_of_accept_eq_error h
  exact ⟨format, hfault⟩

namespace Renderer

/-! ## Waiting values -/

/-- The renderer with the mailbox of an entry emptied. -/
def emptied (r : Renderer) (uid : Nat) (e : Entry) : Renderer :=
  { r with sync := { r.sync with registry := r.sync.registry.set uid { e with mailbox := {} } } }

@[simp] theorem get?_emptied (r : Renderer) (uid other : Nat) (e : Entry) :
    (r.emptied uid e).sync.registry.get? other =
      if uid = other then some { e with mailbox := {} } else r.sync.registry.get? other :=
  Registry.get?_set r.sync.registry uid other _

theorem flush_of_get?_eq_none {r : Renderer} {field : LiveField}
    (he : r.sync.registry.get? field.uid = none) : r.flush field = (.ok false, field, r) := by
  unfold flush Synchronizer.takePending
  rw [he]

/-- Flushing takes the value that waits from the synchronizer, and does nothing else to it. -/
theorem sync_flush (r : Renderer) (field : LiveField) :
    (r.flush field).2.2.sync = (r.sync.takePending field.uid).2 := by
  unfold flush
  rcases r.sync.takePending field.uid with ⟨waiting, sync⟩
  cases waiting with
  | none => rfl
  | some v =>
    simp only
    cases field.set v with
    | error fault => rfl
    | ok set => rfl

/-- Flushing applies the value that waits, if there is one and it can be stored. -/
theorem flush_cases {r : Renderer} {field : LiveField} {e : Entry}
    (he : r.sync.registry.get? field.uid = some e) (hmounted : field.control.isMounted = true) :
    (e.mailbox.slot = none ∧ r.flush field = (.ok false, field, r.emptied field.uid e)) ∨
    (∃ v w, e.mailbox.slot = some v ∧ field.control.role.accept v = .ok w ∧
      r.flush field = (.ok true, field.showing w, r.emptied field.uid e)) ∨
    ∃ v format, e.mailbox.slot = some v ∧
      field.control.role.accept v = .error (.unwritableDate format) ∧
      r.flush field = (.error (.unwritableDate format), field, r.emptied field.uid e) := by
  unfold flush
  rw [Synchronizer.takePending_of_get? he]
  simp only
  cases hslot : e.mailbox.slot with
  | none => exact .inl ⟨rfl, rfl⟩
  | some v =>
    simp only [LiveField.set_of_isMounted hmounted]
    cases haccept : field.control.role.accept v with
    | ok w => exact .inr (.inl ⟨v, w, rfl, haccept, rfl⟩)
    | error fault =>
      obtain ⟨format, rfl⟩ := Role.exists_of_accept_eq_error haccept
      exact .inr (.inr ⟨v, format, rfl, haccept, rfl⟩)

/-- Flushing a field leaves every entry that no value waits for as it is. -/
theorem get?_flush_of_mailbox {r : Renderer} {field : LiveField} {uid : Nat} {e : Entry}
    (hmounted : field.control.isMounted = true) (he : r.sync.registry.get? uid = some e)
    (hempty : e.mailbox = {}) : (r.flush field).2.2.sync.registry.get? uid = some e := by
  cases hown : r.sync.registry.get? field.uid with
  | none =>
    rw [flush_of_get?_eq_none hown]
    exact he
  | some own =>
    have hemptied : (r.emptied field.uid own).sync.registry.get? uid = some e := by
      rw [get?_emptied]
      split
      · next heq =>
        -- It is the field's own entry, the mailbox of which is empty already.
        rw [heq] at hown
        obtain rfl := Option.some.inj (hown.symm.trans he)
        rw [← hempty]
      · exact he
    rcases flush_cases hown hmounted with
      ⟨-, hflush⟩ | ⟨_, _, -, -, hflush⟩ | ⟨_, _, -, -, hflush⟩
    · rw [hflush]
      exact hemptied
    · rw [hflush]
      exact hemptied
    · rw [hflush]
      exact hemptied

/-! ## Rendering -/

/-- The field of a control that goes live under a number. -/
def liveField (control : Control) (uid : Nat) : LiveField :=
  ⟨uid, control.mount, control.mount.view⟩

/-- A field that goes live: its declaration, its control, and the value that this stores first. -/
structure Renders (r : Renderer) (text : String) (context : FileRef) (store : Store)
    (d : Declaration) (control : Control) (stored : Value) : Prop where
  read : r.parser.read text = .ok d
  controls : Control.ofDeclaration d r.parser.dateFormat = .ok control
  stores : control.role.accept
    (Entry.start d context control r.sync.index r.sync.policy store).lastKnown = .ok stored

/-- The renderer with a new entry whose first value was applied. -/
def mounted (r : Renderer) (d : Declaration) (context : FileRef) (control : Control)
    (store : Store) : Renderer :=
  ({ r with sync := (r.sync.attach d context control store).2 } : Renderer).emptied
    (r.sync.registry.issued + 1) (Entry.start d context control r.sync.index r.sync.policy store)

theorem get?_mounted (r : Renderer) (d : Declaration) (context : FileRef) (control : Control)
    (store : Store) (uid : Nat) :
    (r.mounted d context control store).sync.registry.get? uid =
      if r.sync.registry.issued + 1 = uid then
        some { Entry.start d context control r.sync.index r.sync.policy store with mailbox := {} }
      else r.sync.registry.get? uid := by
  unfold mounted
  rw [get?_emptied]
  split
  · rfl
  · next hne =>
    rw [Synchronizer.get?_attach, if_neg hne]

/-- The first value waits for the control of a new entry, which stores it or cannot write it. -/
theorem mountControl_cases (r : Renderer) (d : Declaration) (context : FileRef)
    (control : Control) (store : Store) :
    (∃ w, control.role.accept
        (Entry.start d context control r.sync.index r.sync.policy store).lastKnown = .ok w ∧
      r.mountControl d context control store =
        (.ok ((liveField control (r.sync.registry.issued + 1)).showing w),
          r.mounted d context control store)) ∨
    ∃ format, control.role.accept
        (Entry.start d context control r.sync.index r.sync.policy store).lastKnown =
          .error (.unwritableDate format) ∧
      (r.mountControl d context control store).1 = .error (.unwritableDate format) := by
  have hget : ({ r with sync := (r.sync.attach d context control store).2 } :
      Renderer).sync.registry.get? (liveField control (r.sync.registry.issued + 1)).uid =
        some (Entry.start d context control r.sync.index r.sync.policy store) := by
    rw [Synchronizer.get?_attach]
    exact if_pos rfl
  have hmount : (liveField control (r.sync.registry.issued + 1)).control.isMounted = true := rfl
  -- Unfolding `attach` would lose the store in which the new entry is found.
  have hpair : r.sync.attach d context control store =
      (r.sync.registry.issued + 1, (r.sync.attach d context control store).2) := rfl
  unfold mountControl
  rw [hpair]
  dsimp only
  rcases flush_cases hget hmount with
    ⟨hslot, -⟩ | ⟨v, w, hslot, haccept, hflush⟩ | ⟨v, format, hslot, haccept, hflush⟩
  · exact absurd hslot (by simp [Entry.start])
  · obtain rfl := Option.some.inj hslot
    refine .inl ⟨w, haccept, ?_⟩
    unfold liveField at hflush
    rw [hflush]
    rfl
  · obtain rfl := Option.some.inj hslot
    refine .inr ⟨format, haccept, ?_⟩
    unfold liveField at hflush
    rw [hflush]

/-- A text whose declaration makes a control becomes a field, or its first value cannot be
written. -/
theorem render_of_control {r : Renderer} {text : String} {d : Declaration} {control : Control}
    (hread : r.parser.read text = .ok d)
    (hcontrol : Control.ofDeclaration d r.parser.dateFormat = .ok control) (context : FileRef)
    (store : Store) :
    (∃ stored, r.Renders text context store d control stored ∧
      r.render text context store =
        .ok (.live ((liveField control (r.sync.registry.issued + 1)).showing stored),
          r.mounted d context control store)) ∨
    ∃ format, r.render text context store = .error (.unwritableDate format) := by
  unfold render mount
  rw [hread]
  simp only [hcontrol]
  rcases r.mountControl_cases d context control store with ⟨w, hw, hmount⟩ | ⟨format, -, hmount⟩
  · rw [hmount]
    exact .inl ⟨w, ⟨hread, hcontrol, hw⟩, rfl⟩
  · rcases hboth : r.mountControl d context control store with ⟨outcome, after⟩
    rw [hboth] at hmount
    obtain rfl : outcome = .error (.unwritableDate format) := hmount
    exact .inr ⟨format, rfl⟩

/-- Rendering makes a field live, or shows a placeholder and leaves no trace. -/
theorem render_cases {r r' : Renderer} {text : String} {context : FileRef} {store : Store}
    {rendered : Rendered} (h : r.render text context store = .ok (rendered, r')) :
    (r' = r ∧ ∃ message, rendered = .placeholder message text) ∨
      ∃ d control stored, r.Renders text context store d control stored ∧
        rendered = .live ((liveField control (r.sync.registry.issued + 1)).showing stored) ∧
        r' = r.mounted d context control store := by
  cases hread : r.parser.read text with
  | error error =>
    unfold render mount at h
    rw [hread] at h
    obtain ⟨rfl, rfl⟩ := Prod.mk.inj (Except.ok.inj h)
    exact .inl ⟨rfl, _, rfl⟩
  | ok d =>
    -- The control is made before the entry, so that a refusal leaves the registry alone.
    cases hcontrol : Control.ofDeclaration d r.parser.dateFormat with
    | error fault =>
      unfold render mount at h
      rw [hread] at h
      simp only [hcontrol] at h
      cases fault with
      | refused error =>
        obtain ⟨rfl, rfl⟩ := Prod.mk.inj (Except.ok.inj h)
        exact .inl ⟨rfl, _, rfl⟩
      | unwritableDate format => cases h
    | ok control =>
      rcases render_of_control hread hcontrol context store with
        ⟨stored, hlive, hrender⟩ | ⟨format, hrender⟩
      · obtain ⟨rfl, rfl⟩ := Prod.mk.inj (Except.ok.inj (h.symm.trans hrender))
        exact .inr ⟨d, control, stored, hlive, rfl, rfl⟩
      · rw [hrender] at h
        cases h

/-- The field has what the control made of the value, and so has the store if it could be
written. -/
theorem edit_of_accept {r : Renderer} {field : LiveField} {v w : Value}
    (hmounted : field.control.isMounted = true) (haccept : field.control.role.accept v = .ok w)
    (store : Store) :
    r.edit field v store =
      ⟨((r.sync.onEdit field.uid w store).1.map fun _ => ()).mapError .refused, field.showing w,
        { r with sync := (r.sync.onEdit field.uid w store).2.1 },
        (r.sync.onEdit field.uid w store).2.2⟩ := by
  have hset : field.set v = .ok (field.showing w) := by
    rw [LiveField.set_of_isMounted hmounted, haccept]
    rfl
  have hvalue : (field.showing w).control.value = .ok w := by
    unfold Control.value
    exact if_pos hmounted
  unfold edit
  rw [hset]
  simp only [hvalue]
  rfl

theorem edit_of_accept_eq_error {r : Renderer} {field : LiveField} {v : Value} {fault : Fault}
    (hmounted : field.control.isMounted = true)
    (haccept : field.control.role.accept v = .error fault) (store : Store) :
    r.edit field v store = ⟨.error fault, field, r, store⟩ := by
  have hset : field.set v = .error fault := by
    rw [LiveField.set_of_isMounted hmounted, haccept]
    rfl
  unfold edit
  rw [hset]

/-- An edit goes through only if the control is mounted and takes the value. -/
theorem exists_accept_of_edit {r : Renderer} {field : LiveField} {v : Value} {store : Store}
    (h : (r.edit field v store).outcome = .ok ()) :
    field.control.isMounted = true ∧ ∃ w, field.control.role.accept v = .ok w := by
  unfold edit LiveField.set Control.set at h
  cases haccept : field.control.role.accept v with
  | error fault =>
    rw [haccept] at h
    cases h
  | ok w =>
    refine ⟨?_, w, rfl⟩
    by_contra hmounted
    simp only [haccept, bind, Except.bind, if_neg hmounted] at h
    cases h

/-! ## Deliveries -/

/-- An entry that is bound has been told all changes after they were reported. -/
theorem get?_report {changes : List Change} {sync : Synchronizer} {uid : Nat} {e : Entry}
    {t : Target} (done : List Nat) (he : sync.registry.get? uid = some e)
    (ht : e.binding = .resolved t) :
    (report done sync changes).2.registry.get? uid = some (e.told changes) := by
  induction changes generalizing done sync e with
  | nil => exact he
  | cons change more ih =>
    have hbound := (Entry.sameField_notice e change).binding.trans ht
    exact ih _ (Synchronizer.get?_onChange_of_resolved he ht change) hbound

theorem keepsFields_report (changes : List Change) (done : List Nat) (sync : Synchronizer) :
    sync.KeepsFields (report done sync changes).2 := by
  induction changes generalizing done sync with
  | nil => exact sync.keepsFields_refl
  | cons change more ih => exact (sync.keepsFields_onChange change).trans (ih _ _)

end Renderer

end BoundFields
