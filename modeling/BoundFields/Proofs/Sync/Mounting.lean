import BoundFields.Proofs.Sync.Lifetime
import BoundFields.Proofs.Sync.Session

/-!
# Going live, or not at all

A text that cannot be read, or whose declaration makes no control, is refused, and nothing has
happened (`Renderer.render_of_refuses`). Any other text becomes a field under a new number, next to
all fields that were there before, and its control shows what the store has for it
(`Renderer.hasMounted_mounted`). There is nothing in between, whatever was done before
(`Renderer.exists_run_of_reaches`, `Renderer.render_allOrNothing`).
-/

set_option autoImplicit false

namespace BoundFields

/-! ## The first value -/

namespace Entry

variable {d : Declaration} {context : FileRef} {control : Control} {index : FileIndex}
  {policy : AmbiguityPolicy} {store : Store}

/-- A field starts with what the store has for it. -/
theorem lastKnown_start_of_read {t : Target} {v : Value}
    (ht : Binding.ofDeclaration d context index policy = .resolved t)
    (hv : store.read? t = some v) : (start d context control index policy store).lastKnown = v := by
  rw [lastKnown_start ht, Store.valueOr, hv, Option.getD_some]

/-- A field that the store has nothing for starts with the default of its control. -/
theorem lastKnown_start_of_missing
    (h : ∀ t, Binding.ofDeclaration d context index policy = .resolved t → store.read? t = none) :
    (start d context control index policy store).lastKnown = control.role.default := by
  cases hbinding : Binding.ofDeclaration d context index policy with
  | resolved t => rw [lastKnown_start hbinding, Store.valueOr, h t hbinding, Option.getD_none]
  | unbound | unresolved =>
    unfold start
    rw [hbinding]
    rfl

end Entry

namespace Renderer

variable {r : Renderer} {text : String} {context : FileRef} {store : Store}

/-! ## Refusals -/

/-- A text cannot be read, or no control can be made for its declaration. -/
def Refuses (r : Renderer) (text : String) (error : Error) : Prop :=
  r.parser.read text = .error error ∨
    ∃ d, r.parser.read text = .ok d ∧
      Control.ofDeclaration d r.parser.dateFormat = .error (.refused error)

/-- A text that is refused is shown with the error, and leaves no trace. -/
theorem render_of_refuses {error : Error} (h : r.Refuses text error) (context : FileRef)
    (store : Store) :
    r.render text context store = .ok (.placeholder error.message text, r) := by
  unfold render mount
  rcases h with hread | ⟨d, hread, hcontrol⟩
  · rw [hread]
  · rw [hread]
    simp only [hcontrol]

/-- A text that is not refused has a declaration that makes a control. -/
theorem exists_control_of_not_refuses (h : ∀ error, ¬ r.Refuses text error)
    (hreturns : Returned (r.render text context store)) :
    ∃ d control, r.parser.read text = .ok d ∧
      Control.ofDeclaration d r.parser.dateFormat = .ok control := by
  cases hread : r.parser.read text with
  | error error => exact absurd (.inl hread) (h error)
  | ok d =>
    cases hcontrol : Control.ofDeclaration d r.parser.dateFormat with
    | ok control => exact ⟨d, control, rfl, hcontrol⟩
    | error fault =>
      cases fault with
      | refused error => exact absurd (.inr ⟨d, hread, hcontrol⟩) (h error)
      | unwritableDate format =>
        -- The default of the field is such a date, and the call has not returned.
        refine absurd ?_ (hreturns format)
        unfold render mount
        rw [hread]
        simp only [hcontrol]

/-! ## Histories -/

/-- The first value of a new entry is taken from its mailbox. -/
theorem sync_mounted (r : Renderer) (d : Declaration) (context : FileRef) (control : Control)
    (store : Store) :
    (r.mounted d context control store).sync =
      r.sync.run [.attach d context control store, .take (r.sync.registry.issued + 1)] := by
  have hnew : (r.sync.attach d context control store).2.registry.get?
      (r.sync.registry.issued + 1) =
        some (Entry.start d context control r.sync.index r.sync.policy store) := by
    rw [Synchronizer.get?_attach]
    exact if_pos rfl
  simp only [Synchronizer.run_cons, Synchronizer.run_nil, Synchronizer.perform,
    Synchronizer.takePending_of_get? hnew]
  rfl

theorem report_eq_run (changes : List Change) (done : List Nat) (sync : Synchronizer) :
    (report done sync changes).2 = sync.run (changes.map .report) := by
  induction changes generalizing done sync with
  | nil => rfl
  | cons change more ih => exact ih _ _

/-- Whatever is done with a session, its renderer calls the synchronizer and changes it in no other
way. -/
theorem exists_run_of_step {s s' : Session} (hstep : s.Step s') :
    ∃ calls, s'.renderer.sync = s.renderer.sync.run calls := by
  cases hstep with
  | live text context field r renders =>
    rcases render_cases renders with
      ⟨-, message, hplaceholder⟩ | ⟨d, control, stored, -, -, rfl⟩
    · cases hplaceholder
    · exact ⟨_, s.renderer.sync_mounted d context control s.store⟩
  | placeholder text context message source r renders =>
    rcases render_cases renders with ⟨rfl, -⟩ | ⟨d, control, stored, -, hlive, -⟩
    · exact ⟨[], rfl⟩
    · cases hlive
  | edit uid h v held returns =>
    unfold edit
    cases h.field.set v with
    | error fault => exact ⟨[], rfl⟩
    | ok set =>
      simp only
      cases set.control.value with
      | error error => exact ⟨[], rfl⟩
      | ok stored => exact ⟨[.edit set.uid stored s.store], rfl⟩
  | deliver => exact ⟨_, report_eq_run s.store.pending [] s.renderer.sync⟩
  | flush uid h held returns => exact ⟨[.take h.field.uid], s.renderer.sync_flush h.field⟩
  | unmount uid h held => exact ⟨[.detach h.field.uid], rfl⟩
  | replace | write => exact ⟨[], rfl⟩

theorem exists_run_of_reaches {s s' : Session} (hreach : s.Reaches s') :
    ∃ calls, s'.renderer.sync = s.renderer.sync.run calls := by
  induction hreach with
  | refl => exact ⟨[], rfl⟩
  | tail _ hstep ih =>
    obtain ⟨front, hfront⟩ := ih
    obtain ⟨back, hback⟩ := exists_run_of_step hstep
    exact ⟨front ++ back, by rw [hback, hfront, Synchronizer.run_append]⟩

/-! ## New fields -/

/-- A renderer after a declaration became a live field, whose entry is `e`. -/
structure HasMounted (r : Renderer) (d : Declaration) (context : FileRef) (control : Control)
    (store : Store) (field : LiveField) (e : Entry) (r' : Renderer) : Prop where
  uids : r'.sync.registry.uids = r.sync.registry.uids ++ [field.uid]
  own : r'.sync.registry.get? field.uid = some e
  others : ∀ uid, uid ≠ field.uid → r'.sync.registry.get? uid = r.sync.registry.get? uid
  index : r'.sync.index = r.sync.index
  policy : r'.sync.policy = r.sync.policy
  parser : r'.parser = r.parser
  declaration : e.declaration = d
  document : e.context = context
  binding : e.binding = Binding.ofDeclaration d context r.sync.index r.sync.policy
  rule : e.rule = control.role.rule
  default : e.default = control.role.default
  mailbox : e.mailbox = {}
  unechoed : e.unechoed = []
  /-- The field has the value that its target has in the store. -/
  found : ∀ t v, e.binding = .resolved t → store.read? t = some v → e.lastKnown = v
  /-- It has the default if it has no target, or the target has no value. -/
  missing : (∀ t, e.binding = .resolved t → store.read? t = none) →
    e.lastKnown = control.role.default
  /-- The control is the one of the declaration, set to that value. -/
  seeded : control.mount.set e.lastKnown = .ok field.control
  view : field.view = field.control.view

theorem uids_mounted (hr : r.sync.registry.IsSound) (d : Declaration) (context : FileRef)
    (control : Control) (store : Store) :
    (r.mounted d context control store).sync.registry.uids =
      r.sync.registry.uids ++ [r.sync.registry.issued + 1] := by
  have htaken := (r.sync.attach d context control store).2.keepsFields_takePending
    (r.sync.registry.issued + 1)
  rw [sync_mounted]
  exact htaken.uids.trans (Registry.uids_register hr _)

/-- A control that stores the first value of its entry goes live. -/
theorem hasMounted_mounted (hr : r.sync.registry.IsSound) {d : Declaration} {control : Control}
    {stored : Value} (h : r.Renders text context store d control stored) :
    r.HasMounted d context control store
      ((liveField control (r.sync.registry.issued + 1)).showing stored)
      { Entry.start d context control r.sync.index r.sync.policy store with mailbox := {} }
      (r.mounted d context control store) := by
  refine ⟨uids_mounted hr d context control store, ?_, ?_, rfl, rfl, rfl, rfl, rfl, rfl, rfl, rfl,
    rfl, rfl, fun t v => Entry.lastKnown_start_of_read, Entry.lastKnown_start_of_missing, ?_, rfl⟩
  · rw [get?_mounted]
    exact if_pos rfl
  · intro uid huid
    rw [get?_mounted]
    exact if_neg (Ne.symm huid)
  · have hstores : control.mount.role.accept
        (Entry.start d context control r.sync.index r.sync.policy store).lastKnown = .ok stored :=
      h.stores
    unfold Control.set
    rw [hstores]
    rfl

/-- Rendering does nothing but show the error of a text that is refused, and makes any other text a
live field. The number of the field is greater than all that the synchronizer gave in the calls that
it has come about by. -/
theorem render_allOrNothing {index : FileIndex} {policy : AmbiguityPolicy}
    {calls : List Synchronizer.Call} (hr : r.sync = Synchronizer.run { index, policy } calls)
    (hreturns : Returned (r.render text context store)) :
    (∀ error, r.Refuses text error →
        r.render text context store = .ok (.placeholder error.message text, r)) ∧
      ((∀ error, ¬ r.Refuses text error) → ∃ d control field e r',
        r.parser.read text = .ok d ∧
          Control.ofDeclaration d r.parser.dateFormat = .ok control ∧
          r.render text context store = .ok (.live field, r') ∧
          (∀ uid ∈ Synchronizer.given { index, policy } calls, uid < field.uid) ∧
          r.HasMounted d context control store field e r') := by
  refine ⟨fun error h => render_of_refuses h context store, ?_⟩
  intro haccepted
  obtain ⟨d, control, hread, hcontrol⟩ := exists_control_of_not_refuses haccepted hreturns
  rcases render_of_control hread hcontrol context store with
    ⟨stored, hrenders, hrender⟩ | ⟨format, hrender⟩
  · have hsound : r.sync.registry.IsSound := by
      rw [hr]
      exact Synchronizer.isSound_run Registry.isSound_empty calls
    refine ⟨d, control, _, _, _, hread, hcontrol, hrender, ?_, hasMounted_mounted hsound hrenders⟩
    -- The counter stands at or above every number that was given.
    intro uid huid
    have hle := (Synchronizer.issued_of_mem_given huid).2
    rw [← hr] at hle
    exact Nat.lt_succ_of_le hle
  · exact absurd hrender (hreturns format)

/-- A second field goes live next to the one that is there. -/
theorem render_allOrNothing_due :
    ∃ d control field e r',
      Session.dueLive.renderer.render "INPUT[toggle:done]" ⟨"a.md"⟩ Session.dueLive.store =
          .ok (.live field, r') ∧
        1 < field.uid ∧
        Session.dueLive.renderer.HasMounted d ⟨"a.md"⟩ control Session.dueLive.store field e
          r' := by
  have hhistory : Session.dueLive.renderer.sync =
      Synchronizer.run { index := ({} : FileIndex).insert ⟨"a.md"⟩, policy := .reject }
        [.attach ⟨.date, [], true, some "due", none⟩ ⟨"a.md"⟩ (Session.dueControl "")
          Session.dueLive.store, .take 1] := by
    decide +kernel
  have hread : Session.dueLive.renderer.parser.read "INPUT[toggle:done]" =
      .ok ⟨.toggle, [], true, some "done", none⟩ := by
    decide +kernel
  have hcontrol : Control.ofDeclaration ⟨.toggle, [], true, some "done", none⟩
      Session.dueLive.renderer.parser.dateFormat =
        .ok { type := .toggle, title := none, classes := [], alignRight := false,
              role := .toggle false, isMounted := false, current := .bool false } := by
    decide +kernel
  have haccepted : ∀ error, ¬ Session.dueLive.renderer.Refuses "INPUT[toggle:done]" error := by
    rintro error (hfails | ⟨d, hd, hfails⟩)
    · rw [hread] at hfails
      cases hfails
    · obtain rfl := Except.ok.inj (hread.symm.trans hd)
      rw [hcontrol] at hfails
      cases hfails
  have hreturns : Returned (Session.dueLive.renderer.render "INPUT[toggle:done]" ⟨"a.md"⟩
      Session.dueLive.store) := by
    have hok : (Session.dueLive.renderer.render "INPUT[toggle:done]" ⟨"a.md"⟩
        Session.dueLive.store).isOk = true := by
      decide +kernel
    intro format hfails
    rw [hfails] at hok
    cases hok
  obtain ⟨d, control, field, e, r', -, -, hrender, hnew, hmounted⟩ :=
    (render_allOrNothing hhistory hreturns).2 haccepted
  exact ⟨d, control, field, e, r', hrender, hnew 1 (by decide +kernel), hmounted⟩

end Renderer

end BoundFields
