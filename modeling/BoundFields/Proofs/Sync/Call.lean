import BoundFields.Proofs.Keyed
import BoundFields.Proofs.Sync.Session

/-!
# Calls by name

`Session.perform?` makes the calls of a session computable and tells them apart; together they are
the steps of a session (`Session.step_iff`). A field that is held after a call was held before it,
or was rendered by it (`Session.held_cases`), and numbers are not given twice
(`Session.IsOrderly`).
-/

set_option autoImplicit false

namespace BoundFields

/-- A call of a renderer or of its store. Fields are named by their numbers. -/
inductive Call where
  | render (text : String) (context : FileRef)
  | edit (uid : Nat) (v : Value)
  | deliver
  | flush (uid : Nat)
  | unmount (uid : Nat)
  | replace (file : FileRef) (metadata : Value)
  | write (t : Target) (v : Value)
deriving DecidableEq, Repr

instance {α : Type} (outcome : Except Fault α) : Decidable (Returned outcome) :=
  match outcome with
  | .ok _ => isTrue nofun
  | .error (.refused _) => isTrue nofun
  | .error (.unwritableDate format) => isFalse fun h => h format rfl

namespace Session

/-- The session with a field that went live. -/
def withLive (s : Session) (field : LiveField) (r : Renderer) : Session :=
  { s with
    renderer := r
    held := s.held.put field.uid ⟨field, (r.sync.registry.get? field.uid).map (·.binding), []⟩ }

/-- The session after an edit of a field. -/
def withEdited (s : Session) (uid : Nat) (h : Held) (edited : Edited) : Session :=
  { renderer := edited.renderer
    store := edited.store
    held := s.held.put uid
      { h with field := edited.field, edits := h.edits ++ [edited.outcome] } }

/-- The session after a call. There is none if the call does not return, or if it is about a field
that is not held. -/
def perform? (s : Session) : Call → Option Session
  | .render text context =>
      match s.renderer.render text context s.store with
      | .ok (.live field, r) => some (s.withLive field r)
      | .ok (.placeholder _ _, r) => some { s with renderer := r }
      | .error _ => none
  | .edit uid v => (s.held.get? uid).bind fun h =>
      let edited := s.renderer.edit h.field v s.store
      if Returned edited.outcome then some (s.withEdited uid h edited) else none
  | .deliver => some { s with
      renderer := (s.renderer.deliver s.store).2.1
      store := (s.renderer.deliver s.store).2.2 }
  | .flush uid => (s.held.get? uid).bind fun h =>
      let (outcome, field, r) := s.renderer.flush h.field
      if Returned outcome then
        some { s with renderer := r, held := s.held.put uid { h with field := field } }
      else none
  | .unmount uid => (s.held.get? uid).map fun h =>
      { s with renderer := s.renderer.unmount h.field, held := s.held.erase uid }
  | .replace file metadata => some { s with store := s.store.replace file metadata }
  | .write t v => some { s with store := (s.store.write t v).2 }

variable {s s' : Session}

theorem step_of_perform? {call : Call} (h : s.perform? call = some s') : Step s s' := by
  cases call with
  | render text context =>
    unfold perform? at h
    simp only at h
    split at h
    · next field r hrender =>
      obtain rfl := Option.some.inj h
      exact .live s text context field r hrender
    · next message source r hrender =>
      obtain rfl := Option.some.inj h
      exact .placeholder s text context message source r hrender
    · cases h
  | edit uid v =>
    obtain ⟨held, hheld, h⟩ := Option.bind_eq_some_iff.1 h
    simp only at h
    split at h
    · next hreturns =>
      obtain rfl := Option.some.inj h
      exact .edit s uid held v hheld hreturns
    · cases h
  | deliver =>
    obtain rfl := Option.some.inj h
    exact .deliver s
  | flush uid =>
    obtain ⟨held, hheld, h⟩ := Option.bind_eq_some_iff.1 h
    simp only at h
    split at h
    · next hreturns =>
      obtain rfl := Option.some.inj h
      exact .flush s uid held hheld hreturns
    · cases h
  | unmount uid =>
    obtain ⟨held, hheld, rfl⟩ := Option.map_eq_some_iff.1 h
    exact .unmount s uid held hheld
  | replace file metadata =>
    obtain rfl := Option.some.inj h
    exact .replace s file metadata
  | write t v =>
    obtain rfl := Option.some.inj h
    exact .write s t v

theorem exists_perform?_of_step (h : Step s s') : ∃ call, s.perform? call = some s' := by
  cases h with
  | live text context field r renders =>
    exact ⟨.render text context, by simp [perform?, renders, withLive]⟩
  | placeholder text context message source r renders =>
    exact ⟨.render text context, by simp [perform?, renders]⟩
  | edit uid h v held returns =>
    exact ⟨.edit uid v, by simp [perform?, held, returns, withEdited]⟩
  | deliver => exact ⟨.deliver, rfl⟩
  | flush uid h held returns => exact ⟨.flush uid, by simp [perform?, held, returns]⟩
  | unmount uid h held => exact ⟨.unmount uid, by simp [perform?, held]⟩
  | replace file metadata => exact ⟨.replace file metadata, rfl⟩
  | write t v => exact ⟨.write t v, rfl⟩

/-- The steps of a session are its calls. -/
theorem step_iff : Step s s' ↔ ∃ call, s.perform? call = some s' :=
  ⟨exists_perform?_of_step, fun ⟨_, h⟩ => step_of_perform? h⟩

end Session

/-! ## What a call does to the fields -/

/-- A field that was given a value is another one at most in what it shows. -/
theorem LiveField.exists_showing_of_set {field set : LiveField} {v : Value}
    (h : field.set v = .ok set) : ∃ w, set = field.showing w := by
  cases hmounted : field.control.isMounted with
  | true =>
    rw [LiveField.set_of_isMounted hmounted] at h
    obtain ⟨w, -, rfl⟩ := Outcome.map_eq_ok_iff.1 h
    exact ⟨w, rfl⟩
  | false =>
    unfold LiveField.set Control.set at h
    obtain ⟨control, hcontrol, -⟩ := Outcome.bind_eq_ok_iff.1 h
    obtain ⟨w, -, hset⟩ := Outcome.bind_eq_ok_iff.1 hcontrol
    rw [hmounted] at hset
    cases hset

namespace Renderer

variable (r : Renderer) (field : LiveField)

/-- An edit shows another value at most. -/
theorem edit_keeps (v : Value) (store : Store) :
    (r.edit field v store).renderer.parser = r.parser ∧
      ((r.edit field v store).field = field ∨
        ∃ w, (r.edit field v store).field = field.showing w) := by
  unfold edit
  cases hset : field.set v with
  | error fault => exact ⟨rfl, .inl rfl⟩
  | ok set =>
    obtain ⟨w, rfl⟩ := LiveField.exists_showing_of_set hset
    simp only
    cases (field.showing w).control.value with
    | error error => exact ⟨rfl, .inr ⟨w, rfl⟩⟩
    | ok stored => exact ⟨rfl, .inr ⟨w, rfl⟩⟩

/-- Flushing shows another value at most. -/
theorem flush_keeps :
    (r.flush field).2.2.parser = r.parser ∧
      ((r.flush field).2.1 = field ∨ ∃ w, (r.flush field).2.1 = field.showing w) := by
  unfold flush
  rcases r.sync.takePending field.uid with ⟨waiting, sync⟩
  cases waiting with
  | none => exact ⟨rfl, .inl rfl⟩
  | some v =>
    simp only
    cases hset : field.set v with
    | error fault => exact ⟨rfl, .inl rfl⟩
    | ok set =>
      obtain ⟨w, rfl⟩ := LiveField.exists_showing_of_set hset
      exact ⟨rfl, .inr ⟨w, rfl⟩⟩

/-! ## What a call does to the fields -/

theorem keepsFields_edit (v : Value) (store : Store) :
    r.sync.KeepsFields (r.edit field v store).renderer.sync := by
  unfold edit
  cases field.set v with
  | error fault => exact r.sync.keepsFields_refl
  | ok set =>
    simp only
    cases set.control.value with
    | error error => exact r.sync.keepsFields_refl
    | ok stored => exact r.sync.keepsFields_onEdit set.uid stored store

theorem keepsFields_flush : r.sync.KeepsFields (r.flush field).2.2.sync := by
  rw [sync_flush]
  exact r.sync.keepsFields_takePending field.uid

end Renderer

namespace Session

variable {s s' : Session}

/-- A held field was held before the call, and shows another value at most, or it was rendered by
the call and has a new number. -/
theorem held_cases (hstep : Step s s') {uid : Nat} {h' : Held}
    (hheld : s'.held.get? uid = some h') :
    (∃ h, s.held.get? uid = some h ∧
      (h'.field = h.field ∨ ∃ w, h'.field = h.field.showing w)) ∨
    ∃ text context d control stored, s.renderer.Renders text context s.store d control stored ∧
      s'.renderer = s.renderer.mounted d context control s.store ∧
      uid = s.renderer.sync.registry.issued + 1 ∧
      h'.field = (Renderer.liveField control uid).showing stored := by
  have hput (other : Nat) (h new : Held) (hother : s.held.get? other = some h)
      (hkeeps : new.field = h.field ∨ ∃ w, new.field = h.field.showing w)
      (hheld : (s.held.put other new).get? uid = some h') : ∃ h, s.held.get? uid = some h ∧
        (h'.field = h.field ∨ ∃ w, h'.field = h.field.showing w) := by
    rw [Keyed.get?_put] at hheld
    split at hheld
    · next heq =>
      obtain rfl := Option.some.inj hheld
      exact ⟨h, heq ▸ hother, hkeeps⟩
    · exact ⟨h', hheld, .inl rfl⟩
  cases hstep with
  | live text context field r renders =>
    rcases Renderer.render_cases renders with
      ⟨-, message, hplaceholder⟩ | ⟨d, control, stored, hrenders, hlive, rfl⟩
    · cases hplaceholder
    · obtain rfl := Rendered.live.inj hlive
      rw [Keyed.get?_put] at hheld
      split at hheld
      · next heq =>
        obtain rfl := Option.some.inj hheld
        subst heq
        exact .inr ⟨text, context, d, control, stored, hrenders, rfl, rfl, rfl⟩
      · exact .inl ⟨h', hheld, .inl rfl⟩
  | placeholder => exact .inl ⟨h', hheld, .inl rfl⟩
  | edit other h v held returns =>
    exact .inl (hput other h _ held (Renderer.edit_keeps s.renderer h.field v s.store).2 hheld)
  | deliver => exact .inl ⟨h', hheld, .inl rfl⟩
  | flush other h held returns =>
    exact .inl (hput other h _ held (Renderer.flush_keeps s.renderer h.field).2 hheld)
  | unmount other h held =>
    rw [Keyed.get?_erase] at hheld
    split at hheld
    · cases hheld
    · exact .inl ⟨h', hheld, .inl rfl⟩
  | replace => exact .inl ⟨h', hheld, .inl rfl⟩
  | write => exact .inl ⟨h', hheld, .inl rfl⟩

/-- No call touches the parser. -/
theorem parser_of_step (hstep : Step s s') : s'.renderer.parser = s.renderer.parser := by
  cases hstep with
  | live text context field r renders =>
    rcases Renderer.render_cases renders with ⟨rfl, -⟩ | ⟨d, control, stored, -, -, rfl⟩
    · rfl
    · rfl
  | placeholder text context message source r renders =>
    rcases Renderer.render_cases renders with ⟨rfl, -⟩ | ⟨d, control, stored, -, -, rfl⟩
    · rfl
    · rfl
  | edit uid h v held returns => exact (Renderer.edit_keeps s.renderer h.field v s.store).1
  | flush uid h held returns => exact (Renderer.flush_keeps s.renderer h.field).1
  | deliver | unmount | replace | write => rfl

/-! ## Numbers -/

/-- Every number stands for one entry, and every held field is mounted and has the number that it
is held under, which was issued. -/
structure IsOrderly (s : Session) : Prop where
  unique : s.renderer.sync.registry.entries.IsUnique
  number : ∀ uid h, s.held.get? uid = some h → h.field.uid = uid
  issued : ∀ uid h, s.held.get? uid = some h → uid ≤ s.renderer.sync.registry.issued
  mounted : ∀ uid h, s.held.get? uid = some h → h.field.control.isMounted = true

/-- A call keeps every number to one entry, and takes none back. -/
theorem registry_of_step (hstep : Step s s')
    (hunique : s.renderer.sync.registry.entries.IsUnique) :
    s'.renderer.sync.registry.entries.IsUnique ∧
      s.renderer.sync.registry.issued ≤ s'.renderer.sync.registry.issued := by
  cases hstep with
  | live text context field r renders =>
    rcases Renderer.render_cases renders with
      ⟨-, message, hplaceholder⟩ | ⟨d, control, stored, hrenders, hlive, rfl⟩
    · cases hplaceholder
    · have hattached := Keyed.isUnique_put hunique (s.renderer.sync.registry.issued + 1)
        (Entry.start d context control s.renderer.sync.index s.renderer.sync.policy s.store)
      exact ⟨Keyed.isUnique_put hattached _ _, Nat.le_succ _⟩
  | placeholder text context message source r renders =>
    rcases Renderer.render_cases renders with ⟨rfl, -⟩ | ⟨d, control, stored, -, hlive, -⟩
    · exact ⟨hunique, Nat.le_refl _⟩
    · cases hlive
  | edit uid h v held returns =>
    have hkeeps := Renderer.keepsFields_edit s.renderer h.field v s.store
    exact ⟨hkeeps.isUnique hunique, hkeeps.issued.ge⟩
  | deliver =>
    have hkeeps := Renderer.keepsFields_report s.store.pending [] s.renderer.sync
    exact ⟨hkeeps.isUnique hunique, hkeeps.issued.ge⟩
  | flush uid h held returns =>
    have hkeeps := Renderer.keepsFields_flush s.renderer h.field
    exact ⟨hkeeps.isUnique hunique, hkeeps.issued.ge⟩
  | unmount uid h held => exact ⟨Keyed.isUnique_erase hunique _, Nat.le_refl _⟩
  | replace file metadata => exact ⟨hunique, Nat.le_refl _⟩
  | write t v => exact ⟨hunique, Nat.le_refl _⟩

theorem isOrderly_of_step (hs : s.IsOrderly) (hstep : Step s s') : s'.IsOrderly := by
  obtain ⟨hunique, hissued⟩ := registry_of_step hstep hs.unique
  refine ⟨hunique, ?_, ?_, ?_⟩
  · intro uid h' hheld
    rcases held_cases hstep hheld with
      ⟨h, hold, heq | ⟨w, heq⟩⟩ | ⟨_, _, d, control, stored, -, -, rfl, heq⟩
    · rw [heq]
      exact hs.number uid h hold
    · rw [heq]
      exact hs.number uid h hold
    · rw [heq]
      rfl
  · intro uid h' hheld
    rcases held_cases hstep hheld with
      ⟨h, hold, -⟩ | ⟨_, _, d, control, stored, -, hrenderer, rfl, -⟩
    · exact Nat.le_trans (hs.issued uid h hold) hissued
    · rw [hrenderer]
      exact Nat.le_refl _
  · intro uid h' hheld
    rcases held_cases hstep hheld with
      ⟨h, hold, heq | ⟨w, heq⟩⟩ | ⟨_, _, d, control, stored, -, -, -, heq⟩
    · rw [heq]
      exact hs.mounted uid h hold
    · rw [heq]
      exact hs.mounted uid h hold
    · rw [heq]
      rfl

theorem isOrderly_of_reaches (hs : s.IsOrderly) (hreach : Reaches s s') : s'.IsOrderly := by
  induction hreach with
  | refl => exact hs
  | tail _ hstep ih => exact isOrderly_of_step ih hstep

/-- An edit that returns gives the synchronizer what the control made of the value. -/
theorem exists_onEdit_of_perform? (hs : s.IsOrderly) {uid : Nat} {v : Value}
    (h : s.perform? (.edit uid v) = some s') :
    ∃ held w, s.held.get? uid = some held ∧ held.field.control.role.accept v = .ok w ∧
      s'.renderer.sync = (s.renderer.sync.onEdit uid w s.store).2.1 ∧
      s'.store = (s.renderer.sync.onEdit uid w s.store).2.2 := by
  obtain ⟨held, hheld, h⟩ := Option.bind_eq_some_iff.1 h
  have hmounted := hs.mounted uid held hheld
  simp only at h
  split at h
  · next hreturns =>
    obtain rfl := Option.some.inj h
    cases haccept : held.field.control.role.accept v with
    | error fault =>
      obtain ⟨format, rfl⟩ := Role.exists_of_accept_eq_error haccept
      rw [Renderer.edit_of_accept_eq_error hmounted haccept] at hreturns
      exact absurd rfl (hreturns format)
    | ok w =>
      refine ⟨held, w, hheld, haccept, ?_⟩
      unfold withEdited
      rw [Renderer.edit_of_accept hmounted haccept, hs.number uid held hheld]
      exact ⟨rfl, rfl⟩
  · cases h

/-- Nothing has been rendered yet. -/
structure IsBlank (s : Session) : Prop where
  noHeld : s.held = {}
  noEntries : s.renderer.sync.registry = {}

theorem isOrderly_of_isBlank (hs : s.IsBlank) : s.IsOrderly := by
  have hnone (uid : Nat) (h : Held) : s.held.get? uid ≠ some h := by
    rw [hs.noHeld]
    exact nofun
  refine ⟨?_, fun uid h hheld => absurd hheld (hnone uid h),
    fun uid h hheld => absurd hheld (hnone uid h), fun uid h hheld => absurd hheld (hnone uid h)⟩
  rw [hs.noEntries]
  exact List.nodup_nil

end Session

end BoundFields
