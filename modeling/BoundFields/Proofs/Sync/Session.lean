import Mathlib.Logic.Relation
import Mathlib.Tactic.Convert
import BoundFields.Proofs.Sync.InStep
import BoundFields.Proofs.Sync.Rendering

/-!
# Fields keep up with the store

A session is a renderer with its store and the live fields that somebody holds. Calls come in any
order (`Session.Step`), and many fields may be bound to one value. All of them stay in step with the
store (`Session.Invariant`), so that whenever the store has nothing to report, a field knows what
the store holds, and shows it unless that still waits for it (`Session.hasConverged_of_reaches`).
-/

set_option autoImplicit false

namespace BoundFields

/-! ## Sessions -/

/-- A live field: how it was bound when it was rendered, and what came of its edits. -/
structure Held where
  field : LiveField
  binding : Option Binding
  edits : List (Except Fault Unit) := []
deriving DecidableEq, Repr

/-- A renderer with its store, and the fields that are live, by their numbers. -/
structure Session where
  renderer : Renderer
  store : Store
  held : Keyed Nat Held := {}
deriving DecidableEq, Repr

/-- The call was not ended by a date that cannot be written. -/
def Returned {α : Type} (outcome : Except Fault α) : Prop :=
  ∀ format, outcome ≠ .error (.unwritableDate format)

namespace Session

/-- The entry of a field. -/
def entry? (s : Session) (uid : Nat) : Option Entry := s.renderer.sync.registry.get? uid

/-- One call that returns. -/
inductive Step : Session → Session → Prop where
  | live (s : Session) (text : String) (context : FileRef) (field : LiveField) (r : Renderer)
      (renders : s.renderer.render text context s.store = .ok (.live field, r)) :
      Step s { s with
        renderer := r
        held := s.held.put field.uid
          ⟨field, (r.sync.registry.get? field.uid).map (·.binding), []⟩ }
  | placeholder (s : Session) (text : String) (context : FileRef) (message source : String)
      (r : Renderer)
      (renders : s.renderer.render text context s.store = .ok (.placeholder message source, r)) :
      Step s { s with renderer := r }
  | edit (s : Session) (uid : Nat) (h : Held) (v : Value) (held : s.held.get? uid = some h)
      (returns : Returned (s.renderer.edit h.field v s.store).outcome) :
      Step s
        { renderer := (s.renderer.edit h.field v s.store).renderer
          store := (s.renderer.edit h.field v s.store).store
          held := s.held.put uid { h with
            field := (s.renderer.edit h.field v s.store).field
            edits := h.edits ++ [(s.renderer.edit h.field v s.store).outcome] } }
  | deliver (s : Session) :
      Step s { s with
        renderer := (s.renderer.deliver s.store).2.1
        store := (s.renderer.deliver s.store).2.2 }
  | flush (s : Session) (uid : Nat) (h : Held) (held : s.held.get? uid = some h)
      (returns : Returned (s.renderer.flush h.field).1) :
      Step s { s with
        renderer := (s.renderer.flush h.field).2.2
        held := s.held.put uid { h with field := (s.renderer.flush h.field).2.1 } }
  | unmount (s : Session) (uid : Nat) (h : Held) (held : s.held.get? uid = some h) :
      Step s { s with renderer := s.renderer.unmount h.field, held := s.held.erase uid }
  | replace (s : Session) (file : FileRef) (metadata : Value) :
      Step s { s with store := s.store.replace file metadata }
  | write (s : Session) (t : Target) (v : Value) :
      Step s { s with store := (s.store.write t v).2 }

/-- The state after any number of calls. -/
abbrev Reaches : Session → Session → Prop := Relation.ReflTransGen Step

/-- No field of the session is live, whatever entries the renderer had before, the store has nothing
to report, and the templates, if there are any, were loaded. -/
structure IsFresh (s : Session) : Prop where
  noHeld : s.held = {}
  noPending : s.store.pending = []
  loaded : s.renderer.parser.IsLoaded

end Session

/-! ## Fields in step -/

namespace Held

/-- The control shows what the entry knows, unless a value waits or an edit failed. -/
def Shows (h : Held) (e : Entry) : Prop :=
  h.field.control.role.RereadsItsDates → e.mailbox.slot = none →
    (∀ outcome ∈ h.edits, outcome = .ok ()) →
      h.field.control.role.accept e.lastKnown = .ok h.field.control.current

/-- What every call keeps up of a field that is live. -/
structure IsTracked (s : Session) (uid : Nat) (h : Held) : Prop where
  number : h.field.uid = uid
  issued : uid ≤ s.renderer.sync.registry.issued
  mounted : h.field.control.isMounted = true
  normal : h.field.control.role.RereadsItsDates → h.field.control.role.StoresNormalForms
  inStep : ∀ t, h.binding = some (.resolved t) →
    ∃ e, s.entry? uid = some e ∧ e.InStep s.store t ∧ h.Shows e

variable {s s' : Session} {uid : Nat} {h : Held}

/-- A call that leaves the entry of a field alone does not harm the field. -/
theorem IsTracked.carry (ht : h.IsTracked s uid)
    (hissued : s.renderer.sync.registry.issued ≤ s'.renderer.sync.registry.issued)
    (hentry : s'.entry? uid = s.entry? uid) (hstore : s.store.Carries s'.store) :
    h.IsTracked s' uid := by
  refine ⟨ht.number, Nat.le_trans ht.issued hissued, ht.mounted, ht.normal, ?_⟩
  intro t hbound
  obtain ⟨e, he, hstep, hshows⟩ := ht.inStep t hbound
  exact ⟨e, hentry.trans he, hstore t e hstep, hshows⟩

end Held

namespace Session

/-- The state of a session in which every field is in step with the store. -/
structure Invariant (s : Session) : Prop where
  settles : s.store.Settles s.store.pending
  loaded : s.renderer.parser.IsLoaded
  tracked : ∀ uid h, s.held.get? uid = some h → h.IsTracked s uid

theorem invariant_of_isFresh {s : Session} (hfresh : s.IsFresh) : s.Invariant := by
  refine ⟨?_, hfresh.loaded, ?_⟩
  · rw [hfresh.noPending]
    exact s.store.settles_nil
  · intro uid h hheld
    rw [hfresh.noHeld] at hheld
    exact absurd hheld (by simp)

/-- One field is set, and the others stay. -/
theorem tracked_put {s' : Session} {held : Keyed Nat Held} {uid : Nat} {h : Held}
    (hown : h.IsTracked s' uid)
    (hothers : ∀ other h', uid ≠ other → held.get? other = some h' → h'.IsTracked s' other) :
    ∀ other h', (held.put uid h).get? other = some h' → h'.IsTracked s' other := by
  intro other h' hheld
  rw [Keyed.get?_put] at hheld
  by_cases heq : uid = other
  · rw [if_pos heq] at hheld
    obtain rfl := Option.some.inj hheld
    subst heq
    exact hown
  · rw [if_neg heq] at hheld
    exact hothers other h' heq hheld

/-! ## One call -/

section Calls

variable {s : Session}

/-- The entry of a field that goes live has a number of its own, and is in step from the start. -/
theorem invariant_live (hs : s.Invariant) {text : String} {context : FileRef} {field : LiveField}
    {r : Renderer} (h : s.renderer.render text context s.store = .ok (.live field, r)) :
    Invariant { s with
      renderer := r
      held := s.held.put field.uid
        ⟨field, (r.sync.registry.get? field.uid).map (·.binding), []⟩ } := by
  rcases Renderer.render_cases h with
    ⟨-, message, hplaceholder⟩ | ⟨d, control, stored, hrenders, hlive, rfl⟩
  · cases hplaceholder
  · obtain rfl := Rendered.live.inj hlive
    have hentry := Renderer.get?_mounted s.renderer d context control s.store
    have hown := hentry (s.renderer.sync.registry.issued + 1)
    rw [if_pos rfl] at hown
    refine ⟨hs.settles, hs.loaded, ?_⟩
    -- The number is above all that were issued, so that no other field is registered under it.
    apply tracked_put
    · refine ⟨rfl, Nat.le_refl _, rfl, ?_, ?_⟩
      · have hnormal := Control.storesNormalForms_of_read hs.loaded hrenders.read
          hrenders.controls
        exact hnormal
      · intro t hbound
        have hbinding : (Entry.start d context control s.renderer.sync.index
            s.renderer.sync.policy s.store).binding = .resolved t := by
          have hmap := congrArg (Option.map (·.binding)) hown
          exact Option.some.inj (hmap.symm.trans hbound)
        have hstart := Entry.inStep_start hs.settles d context control _ _ hbinding
        refine ⟨_, hown, Entry.inStep_emptied hstart, ?_⟩
        intro _ _ _
        exact hrenders.stores
    · intro other h' hne hheld
      have htracked := hs.tracked other h' hheld
      apply htracked.carry
      · exact Nat.le_succ _
      · exact (hentry other).trans (if_neg hne)
      · exact Entry.carries_refl s.store

/-- An edit of a field that is not bound shows in its control only. -/
theorem invariant_unbound (hs : s.Invariant) {uid : Nat} {h : Held}
    (hheld : s.held.get? uid = some h) (hunbound : ∀ e, s.entry? uid = some e → e.target? = none)
    (w : Value) (edits : List (Except Fault Unit)) :
    Invariant { s with
      held := s.held.put uid { h with field := h.field.showing w, edits := edits } } := by
  have ht := hs.tracked uid h hheld
  refine ⟨hs.settles, hs.loaded, ?_⟩
  apply tracked_put
  · refine ⟨ht.number, ht.issued, ht.mounted, ht.normal, ?_⟩
    intro t hresolved
    obtain ⟨e, he, hstep, -⟩ := ht.inStep t hresolved
    have hnone := hunbound e he
    rw [Entry.target?_eq_some_iff.2 hstep.bound] at hnone
    cases hnone
  · intro other h' _ hother
    exact (hs.tracked other h' hother).carry (Nat.le_refl _) rfl (Entry.carries_refl s.store)

/-- An edit that was written is awaited by the entry, and shown. -/
theorem invariant_wrote (hs : s.Invariant) {uid : Nat} {h : Held}
    (hheld : s.held.get? uid = some h) {v w : Value}
    (haccept : h.field.control.role.accept v = .ok w) {e : Entry} {t : Target} {root : Value}
    (he : s.entry? uid = some e) (hbound : e.binding = .resolved t)
    (hroot : root.read? t.path = some w) (edits : List (Except Fault Unit)) :
    Invariant
      { renderer := { s.renderer with sync := { s.renderer.sync with
          registry := s.renderer.sync.registry.set uid (e.wrote w) } }
        store := s.store.replace t.file root
        held := s.held.put uid { h with field := h.field.showing w, edits := edits } } := by
  have ht := hs.tracked uid h hheld
  have hentry := Registry.get?_set s.renderer.sync.registry uid
  refine ⟨Store.settles_replace hs.settles t.file root, hs.loaded, ?_⟩
  apply tracked_put
  · refine ⟨ht.number, ht.issued, ht.mounted, ht.normal, ?_⟩
    intro t' hresolved
    obtain ⟨e', he', hstep, -⟩ := ht.inStep t' hresolved
    obtain rfl := Option.some.inj (he.symm.trans he')
    obtain rfl := Binding.resolved.inj (hbound.symm.trans hstep.bound)
    refine ⟨e.wrote w, ?_, Entry.inStep_wrote hstep hroot, ?_⟩
    · exact (hentry uid _).trans (if_pos rfl)
    · -- The control stored what it wrote, and would store it again.
      intro hdates _ _
      exact ht.normal hdates v w haccept
  · intro other h' hne hother
    apply (hs.tracked other h' hother).carry
    · exact Nat.le_refl _
    · exact (hentry other _).trans (if_neg hne)
    · exact Entry.carries_replace s.store t.file root

/-- An edit that could not be written shows in the control, which nothing is promised of then. -/
theorem invariant_failed (hs : s.Invariant) {uid : Nat} {h : Held}
    (hheld : s.held.get? uid = some h) (w : Value) {fault : Fault} :
    Invariant { s with
      held := s.held.put uid { h with
        field := h.field.showing w
        edits := h.edits ++ [.error fault] } } := by
  have ht := hs.tracked uid h hheld
  refine ⟨hs.settles, hs.loaded, ?_⟩
  apply tracked_put
  · refine ⟨ht.number, ht.issued, ht.mounted, ht.normal, ?_⟩
    intro t hresolved
    obtain ⟨e, he, hstep, -⟩ := ht.inStep t hresolved
    refine ⟨e, he, hstep, ?_⟩
    intro _ _ hedits
    have hlast := hedits (.error fault) (by simp)
    cases hlast
  · intro other h' _ hother
    exact (hs.tracked other h' hother).carry (Nat.le_refl _) rfl (Entry.carries_refl s.store)

theorem invariant_edit (hs : s.Invariant) {uid : Nat} {h : Held} {v : Value}
    (hheld : s.held.get? uid = some h)
    (hreturns : Returned (s.renderer.edit h.field v s.store).outcome) :
    Invariant
      { renderer := (s.renderer.edit h.field v s.store).renderer
        store := (s.renderer.edit h.field v s.store).store
        held := s.held.put uid { h with
          field := (s.renderer.edit h.field v s.store).field
          edits := h.edits ++ [(s.renderer.edit h.field v s.store).outcome] } } := by
  have ht := hs.tracked uid h hheld
  cases haccept : h.field.control.role.accept v with
  | error fault =>
    obtain ⟨format, rfl⟩ := Role.exists_of_accept_eq_error haccept
    rw [Renderer.edit_of_accept_eq_error ht.mounted haccept] at hreturns
    exact absurd rfl (hreturns format)
  | ok w =>
    rw [Renderer.edit_of_accept ht.mounted haccept, ht.number]
    rcases s.renderer.sync.onEdit_cases uid w s.store with
      ⟨hedit, hunbound⟩ | ⟨e, t, he, hbound, ⟨root, hroot, hedit⟩ | ⟨error, hedit⟩⟩
    · rw [hedit]
      exact invariant_unbound hs hheld hunbound w _
    · rw [hedit]
      exact invariant_wrote hs hheld haccept he hbound hroot _
    · rw [hedit]
      exact invariant_failed hs hheld w

theorem invariant_deliver (hs : s.Invariant) :
    Invariant { s with
      renderer := (s.renderer.deliver s.store).2.1
      store := (s.renderer.deliver s.store).2.2 } := by
  refine ⟨Store.settles_nil _, hs.loaded, ?_⟩
  intro uid h hheld
  have ht := hs.tracked uid h hheld
  refine ⟨ht.number, ?_, ht.mounted, ht.normal, ?_⟩
  · exact (Renderer.keepsFields_report s.store.pending [] s.renderer.sync).issued.symm ▸ ht.issued
  · intro t hresolved
    obtain ⟨e, he, hstep, hshows⟩ := ht.inStep t hresolved
    refine ⟨e.told s.store.pending, ?_, Entry.inStep_told hstep, ?_⟩
    · exact Renderer.get?_report [] he hstep.bound
    · -- With an empty mailbox no change was news, so that the control is still up to date.
      intro hdates hslot hedits
      obtain ⟨hslot₀, hknown⟩ := Entry.slot_eq_none_of_told hslot
      rw [hknown]
      exact hshows hdates hslot₀ hedits

/-- A field whose mailbox is emptied has to show what its entry knows from then on. -/
theorem invariant_emptied (hs : s.Invariant) {uid : Nat} {h : Held}
    (hheld : s.held.get? uid = some h) {e : Entry} (he : s.entry? uid = some e)
    {field : LiveField} (hnumber : field.uid = uid) (hmounted : field.control.isMounted = true)
    (hnormal : field.control.role.RereadsItsDates → field.control.role.StoresNormalForms)
    (hshows : e.IsPosted → h.Shows e →
      ({ h with field := field } : Held).Shows { e with mailbox := {} }) :
    Invariant { s with
      renderer := s.renderer.emptied uid e
      held := s.held.put uid { h with field := field } } := by
  have hentry := Renderer.get?_emptied s.renderer uid
  refine ⟨hs.settles, hs.loaded, ?_⟩
  apply tracked_put
  · refine ⟨hnumber, (hs.tracked uid h hheld).issued, hmounted, hnormal, ?_⟩
    intro t hbound
    obtain ⟨e', he', hstep, hold⟩ := (hs.tracked uid h hheld).inStep t hbound
    obtain rfl := Option.some.inj (he.symm.trans he')
    refine ⟨{ e with mailbox := {} }, ?_, Entry.inStep_emptied hstep, hshows hstep.posted hold⟩
    exact (hentry uid e).trans (if_pos rfl)
  · intro other h' hne hother
    apply (hs.tracked other h' hother).carry
    · exact Nat.le_refl _
    · exact (hentry other e).trans (if_neg hne)
    · exact Entry.carries_refl s.store

/-- What waits for a field is what its entry knows, so that the control shows that once it was
flushed. -/
theorem invariant_flush (hs : s.Invariant) {uid : Nat} {h : Held}
    (hheld : s.held.get? uid = some h) (hreturns : Returned (s.renderer.flush h.field).1) :
    Invariant { s with
      renderer := (s.renderer.flush h.field).2.2
      held := s.held.put uid { h with field := (s.renderer.flush h.field).2.1 } } := by
  have ht := hs.tracked uid h hheld
  cases he : s.renderer.sync.registry.get? h.field.uid with
  | none =>
    rw [Renderer.flush_of_get?_eq_none he]
    refine ⟨hs.settles, hs.loaded, ?_⟩
    apply tracked_put
    · exact ht.carry (Nat.le_refl _) rfl (Entry.carries_refl s.store)
    · intro other h' _ hother
      exact (hs.tracked other h' hother).carry (Nat.le_refl _) rfl (Entry.carries_refl s.store)
  | some e =>
    have he' : s.entry? uid = some e := by
      rw [← ht.number]
      exact he
    rcases Renderer.flush_cases he ht.mounted with
      ⟨hslot, hflush⟩ | ⟨v, w, hslot, haccept, hflush⟩ | ⟨v, format, -, -, hflush⟩
    · rw [hflush, ht.number]
      apply invariant_emptied hs hheld he' ht.number ht.mounted ht.normal
      intro _ hshows hdates _ hedits
      exact hshows hdates hslot hedits
    · rw [hflush, ht.number]
      have hshowing : (h.field.showing w).uid = uid := ht.number
      apply invariant_emptied hs hheld he' hshowing ht.mounted ht.normal
      -- Only what the entry knows can wait in its mailbox.
      intro hposted _ _ _ _
      rcases hposted with hnone | hknown
      · rw [hslot] at hnone
        cases hnone
      · obtain rfl := Option.some.inj (hslot.symm.trans hknown)
        exact haccept
    · rw [hflush] at hreturns
      exact absurd rfl (hreturns format)

theorem invariant_unmount (hs : s.Invariant) {uid : Nat} {h : Held}
    (hheld : s.held.get? uid = some h) :
    Invariant { s with renderer := s.renderer.unmount h.field, held := s.held.erase uid } := by
  refine ⟨hs.settles, hs.loaded, ?_⟩
  intro other h' hother
  rw [Keyed.get?_erase] at hother
  by_cases heq : uid = other
  · rw [if_pos heq] at hother
    cases hother
  · rw [if_neg heq] at hother
    apply (hs.tracked other h' hother).carry
    · exact Nat.le_refl _
    · rw [← (hs.tracked uid h hheld).number] at heq
      exact (Synchronizer.get?_detach s.renderer.sync h.field.uid other).trans (if_neg heq)
    · exact Entry.carries_refl s.store

/-- A change of the store alone is one that it carries its entries through. -/
theorem invariant_store (hs : s.Invariant) {store : Store}
    (hsettles : store.Settles store.pending) (hcarries : s.store.Carries store) :
    Invariant { s with store := store } := by
  refine ⟨hsettles, hs.loaded, ?_⟩
  intro uid h hheld
  exact (hs.tracked uid h hheld).carry (Nat.le_refl _) rfl hcarries

end Calls

/-! ## All calls -/

theorem invariant_of_step {s s' : Session} (hs : s.Invariant) (hstep : Step s s') :
    s'.Invariant := by
  cases hstep with
  | live text context field r renders => exact invariant_live hs renders
  | placeholder text context message source r renders =>
    rcases Renderer.render_cases renders with
      ⟨rfl, -⟩ | ⟨d, control, stored, -, hlive, -⟩
    · exact hs
    · cases hlive
  | edit uid h v held returns => exact invariant_edit hs held returns
  | deliver => exact invariant_deliver hs
  | flush uid h held returns => exact invariant_flush hs held returns
  | unmount uid h held => exact invariant_unmount hs held
  | replace file metadata =>
    have hsettles := Store.settles_replace hs.settles file metadata
    exact invariant_store hs hsettles (Entry.carries_replace s.store file metadata)
  | write t v =>
    have hcarries := Entry.carries_write s.store t v
    rcases s.store.write_cases t v with ⟨root, -, hwrite⟩ | ⟨error, hwrite⟩
    · rw [hwrite] at hcarries ⊢
      exact invariant_store hs (Store.settles_replace hs.settles t.file root) hcarries
    · rw [hwrite]
      exact hs

theorem invariant_of_reaches {s s' : Session} (hs : s.Invariant) (hreach : Reaches s s') :
    s'.Invariant := by
  induction hreach with
  | refl => exact hs
  | tail _ hstep ih => exact invariant_of_step ih hstep

/-! ## Nothing to report -/

/-- A field that is bound to `t` knows what the store holds, and shows it unless that still waits
for it or an edit failed. -/
structure HasConverged (s : Session) (uid : Nat) (h : Held) (t : Target) (e : Entry) : Prop where
  entry : s.entry? uid = some e
  bound : e.binding = .resolved t
  echoed : e.unechoed = []
  agrees : e.rule.Agrees e.lastKnown (s.store.valueOr t e.default)
  posted : e.mailbox.slot = none ∨ e.mailbox.slot = some e.lastKnown
  shown : h.field.control.role.RereadsItsDates → e.mailbox.slot = none →
    (∀ outcome ∈ h.edits, outcome = .ok ()) →
      ∃ set stored, h.field.control.set e.lastKnown = .ok set ∧ set.value = .ok stored ∧
        h.field.control.value = .ok stored

/-- Every field that was bound when it was rendered has converged whenever the store has nothing to
report. -/
theorem hasConverged_of_reaches {s s' : Session} (hfresh : s.IsFresh) (hreach : Reaches s s')
    (hquiet : s'.store.pending = []) {uid : Nat} {h : Held} {t : Target}
    (hheld : s'.held.get? uid = some h) (hbound : h.binding = some (.resolved t)) :
    ∃ e, s'.HasConverged uid h t e := by
  have hs := invariant_of_reaches (invariant_of_isFresh hfresh) hreach
  have ht := hs.tracked uid h hheld
  obtain ⟨e, he, hstep, hshows⟩ := ht.inStep t hbound
  have hechoed := hstep.echoed
  have hagrees := hstep.agrees
  rw [hquiet, Entry.told_nil] at hechoed hagrees
  refine ⟨e, he, hstep.bound, hechoed, hagrees, hstep.posted, ?_⟩
  intro hdates hslot hedits
  have haccept := hshows hdates hslot hedits
  refine ⟨{ h.field.control with current := h.field.control.current },
    h.field.control.current, ?_, ?_, ?_⟩
  · unfold Control.set
    rw [haccept]
    exact if_pos ht.mounted
  · exact if_pos ht.mounted
  · exact if_pos ht.mounted

/-! ## A run -/

/-- Where `INPUT[date:due]` is bound to in the document `a.md`. -/
def dueTarget : Target := ⟨⟨"a.md"⟩, ⟨["due"]⟩⟩

/-- Metadata that has a due date only. -/
def dueOnly (due : String) : Value := .mapping [(.string "due", .string due)]

/-- The store after some changes of the due date, the last of which set it to `due`. -/
def dueStore (due : String) (changes : List String) : Store :=
  { documents := ⟨[(⟨"a.md"⟩, dueOnly due)]⟩
    pending := changes.map fun due => ⟨⟨"a.md"⟩, dueOnly due⟩ }

/-- A session with one document, and no field yet. -/
def dueStart : Session :=
  { renderer := { sync := { index := ({} : FileIndex).insert ⟨"a.md"⟩ } }
    store := dueStore "2024-06-01" [] }

/-- The control of a date field that shows `current`. -/
def dueControl (current : String) : Control :=
  { type := .date, title := none, classes := [], alignRight := false,
    role := .date defaultDateFormat none none none, isMounted := true,
    current := .string current }

/-- The entry of that field. -/
def dueEntry (lastKnown : String) (unechoed : List Value) (waiting : Option Value) : Entry :=
  { declaration := ⟨.date, [], true, some "due", none⟩, context := ⟨"a.md"⟩,
    binding := .resolved dueTarget, rule := .date defaultDateFormat, default := .null,
    lastKnown := .string lastKnown, unechoed, mailbox := ⟨waiting⟩ }

/-- The field once it is live and shows `current`. -/
def dueHeld (current : String) (edits : List (Except Fault Unit)) : Held :=
  { field := ⟨1, dueControl current, (dueControl current).view⟩
    binding := some (.resolved dueTarget)
    edits }

/-- A session with that field, at some point of the run. -/
def dueRun (held : Held) (entry : Entry) (store : Store) : Session :=
  { renderer := { sync := { registry := { entries := ⟨[(1, entry)]⟩, issued := 1 }
                            index := ({} : FileIndex).insert ⟨"a.md"⟩ } }
    store
    held := ⟨[(1, held)]⟩ }

/-- The field is live. -/
def dueLive : Session :=
  dueRun (dueHeld "2024-06-01" []) (dueEntry "2024-06-01" [] none) (dueStore "2024-06-01" [])

/-- The field was edited, and its write is on its way back. -/
def dueEdited : Session :=
  dueRun (dueHeld "2024-06-02" [.ok ()]) (dueEntry "2024-06-02" [.string "2024-06-02"] none)
    (dueStore "2024-06-02" ["2024-06-02"])

/-- Somebody else has set another date. -/
def dueReplaced : Session :=
  dueRun (dueHeld "2024-06-02" [.ok ()]) (dueEntry "2024-06-02" [.string "2024-06-02"] none)
    (dueStore "2024-07-01" ["2024-06-02", "2024-07-01"])

/-- Both changes were reported, and the other date waits for the field. -/
def dueDelivered : Session :=
  dueRun (dueHeld "2024-06-02" [.ok ()])
    (dueEntry "2024-07-01" [] (some (.string "2024-07-01"))) (dueStore "2024-07-01" [])

/-- The field shows the other date. -/
def dueFlushed : Session :=
  dueRun (dueHeld "2024-07-01" [.ok ()]) (dueEntry "2024-07-01" [] none)
    (dueStore "2024-07-01" [])

theorem isFresh_dueStart : dueStart.IsFresh := ⟨rfl, rfl, {}, [], rfl⟩

theorem reaches_dueFlushed : Reaches dueStart dueFlushed := by
  have hlive : Step dueStart dueLive := by
    convert Step.live dueStart "INPUT[date:due]" ⟨"a.md"⟩ (dueHeld "2024-06-01" []).field
      dueLive.renderer (by decide +kernel) using 1
    decide +kernel
  have hedit : Step dueLive dueEdited := by
    have hok : (dueLive.renderer.edit (dueHeld "2024-06-01" []).field (.string "2024-6-2")
        dueLive.store).outcome = .ok () := by
      decide +kernel
    convert Step.edit dueLive 1 (dueHeld "2024-06-01" []) (.string "2024-6-2") rfl
      (fun format h => absurd (hok.symm.trans h) (by simp)) using 1
    decide +kernel
  have hreplace : Step dueEdited dueReplaced := by
    convert Step.replace dueEdited ⟨"a.md"⟩ (dueOnly "2024-07-01") using 1
    decide +kernel
  have hdeliver : Step dueReplaced dueDelivered := by
    convert Step.deliver dueReplaced using 1
    decide +kernel
  have hflush : Step dueDelivered dueFlushed := by
    have hok : (dueDelivered.renderer.flush (dueHeld "2024-06-02" [.ok ()]).field).1 =
        .ok true := by
      decide +kernel
    convert Step.flush dueDelivered 1 (dueHeld "2024-06-02" [.ok ()]) rfl
      (fun format h => absurd (hok.symm.trans h) (by simp)) using 1
    decide +kernel
  exact ((((Relation.ReflTransGen.single hlive).tail hedit).tail hreplace).tail hdeliver).tail
    hflush

theorem hasConverged_of_reaches_dueFlushed :
    ∃ e, Reaches dueStart dueFlushed ∧ dueFlushed.store.pending = [] ∧
      dueFlushed.held.get? 1 = some (dueHeld "2024-07-01" [.ok ()]) ∧
      dueFlushed.HasConverged 1 (dueHeld "2024-07-01" [.ok ()]) dueTarget e ∧
      (dueHeld "2024-07-01" [.ok ()]).field.control.role.RereadsItsDates := by
  have hheld : dueFlushed.held.get? 1 = some (dueHeld "2024-07-01" [.ok ()]) := rfl
  obtain ⟨e, he⟩ := hasConverged_of_reaches isFresh_dueStart reaches_dueFlushed rfl hheld rfl
  exact ⟨e, reaches_dueFlushed, rfl, rfl, he, rereadsDates_default⟩

end Session

end BoundFields
