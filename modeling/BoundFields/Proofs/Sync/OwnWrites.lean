import BoundFields.Proofs.Sync.Call
import BoundFields.Proofs.Sync.Overtaking

/-!
# Fields that hear of themselves

As long as nobody but a field changes its value, the field should hear of no change. It does not,
but for one case: somebody else changes another field of the document, and a write of the field is
queued behind that change. Each delivery is told exactly (`Session.isSilent_iff_of_ownRun`): the
field is among those that it names if what it reports from the first change on that the field did
not make itself is not all equal to the value that the field has now.
-/

set_option autoImplicit false

namespace BoundFields

/-! ## Who is named by a delivery -/

/-- A change names a bound field if it is news for its entry. -/
theorem Synchronizer.mem_onChange_iff_of_resolved {sync : Synchronizer} {uid : Nat} {e : Entry}
    {t : Target} (hunique : sync.registry.entries.IsUnique)
    (he : sync.registry.get? uid = some e) (ht : e.binding = .resolved t) (change : Change) :
    uid ∈ (sync.onChange change).1 ↔ (e.notice change).1 = true := by
  rw [mem_onChange_iff hunique]
  constructor
  · rintro ⟨e', he', hnews⟩
    obtain rfl := Option.some.inj (he'.symm.trans he)
    rw [Entry.retry_of_resolved ht] at hnews
    exact hnews
  · intro hnews
    refine ⟨e, he, ?_⟩
    rw [Entry.retry_of_resolved ht]
    exact hnews

namespace Renderer

/-- A delivery names the bound fields that hear something. -/
theorem mem_report_iff {uid : Nat} {t : Target} (changes : List Change) :
    ∀ {sync : Synchronizer} {e : Entry} (done : List Nat), sync.registry.entries.IsUnique →
      sync.registry.get? uid = some e → e.binding = .resolved t →
      (uid ∈ (report done sync changes).1 ↔
        uid ∈ done ∨ e.hears (reported t e.default changes) = true) := by
  induction changes with
  | nil =>
    intro sync e done _ _ _
    simp [report, Entry.hears]
  | cons change more ih =>
    intro sync e done hunique he ht
    have hunique' := (sync.keepsFields_onChange change).isUnique hunique
    have he' := Synchronizer.get?_onChange_of_resolved he ht change
    have hsame := Entry.sameField_notice e change
    have hmore := ih (done ++ (sync.onChange change).1.filter (!done.contains ·)) hunique' he'
      (hsame.binding.trans ht)
    rw [hsame.default] at hmore
    have hnamed := Synchronizer.mem_onChange_iff_of_resolved hunique he ht change
    have hdone : uid ∈ done ++ (sync.onChange change).1.filter (!done.contains ·) ↔
        uid ∈ done ∨ (e.notice change).1 = true := by
      rw [List.mem_append, List.mem_filter, hnamed]
      by_cases hin : uid ∈ done
      · simp [hin]
      · simp [hin]
    have hhears : e.hears (reported t e.default (change :: more)) =
        ((e.notice change).1 || (e.notice change).2.hears (reported t e.default more)) := by
      rw [reported_cons]
      by_cases hfile : change.file = t.file
      · rw [if_pos hfile, Entry.notice_of_file_eq ht hfile]
        rfl
      · rw [if_neg hfile, Entry.notice_of_file_ne ht hfile]
        rfl
    rw [hhears, Bool.or_eq_true, ← or_assoc, ← hdone]
    exact hmore

end Renderer

/-! ## Runs of a field on its own -/

/-- The call neither edits nor unmounts the field, and is no delivery. -/
def Call.IsOthers (uid : Nat) : Call → Prop
  | .edit other _ | .unmount other => other ≠ uid
  | .deliver => False
  | .render .. | .flush _ | .replace .. | .write .. => True

namespace Session

/-- What the changes report of a field that the store queues between two states. -/
def queued (t : Target) (default : Value) (s s' : Session) : List Value :=
  reported t default (s'.store.pending.drop s.store.pending.length)

/-- A run, from the state `start` on, in which the value at `t` is changed by the field `uid` only.
The list is what is reported of the field from the first change of its document on that it did not
make itself; the flag tells whether some of this was not equal to the value that the field had when
it was delivered. -/
inductive OwnRun (uid : Nat) (t : Target) (role : Role) (start : Session) :
    Session → List Value → Bool → Prop where
  | nil : OwnRun uid t role start start [] false
  | own {s s' : Session} {behind : List Value} {flag : Bool} {v : Value}
      (run : OwnRun uid t role start s behind flag)
      (call : s.perform? (.edit uid v) = some s')
      (isNumber : ∀ w, role.accept v = .ok w → w.isNaN = false) :
      OwnRun uid t role start s'
        (if behind = [] then [] else behind ++ queued t role.default s s') flag
  | others {s s' : Session} {behind : List Value} {flag : Bool} {call : Call}
      (run : OwnRun uid t role start s behind flag)
      (isOthers : call.IsOthers uid) (call : s.perform? call = some s')
      (same : s'.store.valueOr t role.default = s.store.valueOr t role.default) :
      OwnRun uid t role start s' (behind ++ queued t role.default s s') flag
  | deliver {s s' : Session} {behind : List Value} {flag : Bool}
      (run : OwnRun uid t role start s behind flag) (call : s.perform? .deliver = some s') :
      OwnRun uid t role start s' []
        (flag || behind.any fun v => !role.rule.eq (s.store.valueOr t role.default) v)

/-- The field is not spoken to: its entry is ahead of what it is told. -/
structure IsAhead (uid : Nat) (t : Target) (role : Role) (s : Session) (behind : List Value) :
    Prop where
  orderly : s.IsOrderly
  issued : uid ≤ s.renderer.sync.registry.issued
  sameRole : ∀ h, s.held.get? uid = some h → h.field.control.role = role
  entry : ∃ e, s.entry? uid = some e ∧ e.IsAhead role t s.store behind

variable {s s' : Session} {uid : Nat} {t : Target} {role : Role} {behind : List Value}

/-- A call that is not about the field does not touch its entry, as long as nothing waits in its
mailbox, and takes no change out of the queue. -/
theorem entry_of_isOthers (hs : s.IsOrderly) (hissued : uid ≤ s.renderer.sync.registry.issued)
    {call : Call} (hothers : call.IsOthers uid) (h : s.perform? call = some s') {e : Entry}
    (he : s.entry? uid = some e) (hempty : e.mailbox = {}) :
    s'.entry? uid = some e ∧ ∃ new, s'.store.pending = s.store.pending ++ new := by
  have hnone : s.store.pending = s.store.pending ++ [] := (List.append_nil _).symm
  cases call with
  | render text context =>
    unfold perform? at h
    simp only at h
    split at h
    · next field r hrender =>
      obtain rfl := Option.some.inj h
      rcases Renderer.render_cases hrender with
        ⟨-, message, hplaceholder⟩ | ⟨d, control, _, -, -, rfl⟩
      · cases hplaceholder
      · refine ⟨?_, [], hnone⟩
        have hne : s.renderer.sync.registry.issued + 1 ≠ uid := by omega
        exact (Renderer.get?_mounted s.renderer d context control s.store uid).trans
          ((if_neg hne).trans he)
    · next message source r hrender =>
      obtain rfl := Option.some.inj h
      rcases Renderer.render_cases hrender with ⟨rfl, -⟩ | ⟨_, _, _, -, hlive, -⟩
      · exact ⟨he, [], hnone⟩
      · cases hlive
    · cases h
  | edit other v =>
    have hother : other ≠ uid := hothers
    obtain ⟨_, w, -, -, hsync, hstore⟩ := exists_onEdit_of_perform? hs h
    unfold entry?
    rw [hsync, hstore]
    rcases s.renderer.sync.onEdit_cases other w s.store with
      ⟨hedit, -⟩ | ⟨e', t', -, -, ⟨root, -, hedit⟩ | ⟨error, hedit⟩⟩
    · rw [hedit]
      exact ⟨he, [], hnone⟩
    · rw [hedit]
      refine ⟨?_, [⟨t'.file, root⟩], rfl⟩
      exact (Registry.get?_set _ other uid _).trans ((if_neg hother).trans he)
    · rw [hedit]
      exact ⟨he, [], hnone⟩
  | deliver => exact hothers.elim
  | flush other =>
    obtain ⟨held, hheld, h⟩ := Option.bind_eq_some_iff.1 h
    simp only at h
    split at h
    · obtain rfl := Option.some.inj h
      have hmounted := hs.mounted other held hheld
      exact ⟨Renderer.get?_flush_of_mailbox hmounted he hempty, [], hnone⟩
    · cases h
  | unmount other =>
    have hother : other ≠ uid := hothers
    obtain ⟨held, hheld, rfl⟩ := Option.map_eq_some_iff.1 h
    refine ⟨?_, [], hnone⟩
    rw [← hs.number other held hheld] at hother
    exact (Synchronizer.get?_detach s.renderer.sync held.field.uid uid).trans
      ((if_neg hother).trans he)
  | replace file metadata =>
    obtain rfl := Option.some.inj h
    exact ⟨he, [⟨file, metadata⟩], rfl⟩
  | write t' v =>
    obtain rfl := Option.some.inj h
    refine ⟨he, ?_⟩
    rcases s.store.write_cases t' v with ⟨root, -, hwrite⟩ | ⟨error, hwrite⟩
    · exact ⟨[⟨t'.file, root⟩], by rw [hwrite]; rfl⟩
    · exact ⟨[], by rw [hwrite]; exact hnone⟩

theorem queued_of_pending {default : Value} {new : List Change}
    (h : s'.store.pending = s.store.pending ++ new) :
    queued t default s s' = reported t default new := by
  unfold queued
  rw [h, List.drop_left]

theorem queued_of_replace {default : Value} {file : FileRef} {root : Value}
    (h : s'.store = s.store.replace file root) :
    queued t default s s' = reported t default [⟨file, root⟩] :=
  queued_of_pending (congrArg (·.pending) h)

theorem queued_of_eq {default : Value} (h : s'.store = s.store) : queued t default s s' = [] := by
  have hpending : s'.store.pending = s.store.pending ++ [] :=
    (congrArg (·.pending) h).trans (List.append_nil _).symm
  exact queued_of_pending hpending

/-- An edit of the field is written and awaited, or nothing of it is left but what is shown. -/
theorem entry_of_own (hs : s.IsAhead uid t role behind) {v : Value}
    (h : s.perform? (.edit uid v) = some s')
    (hnumber : ∀ w, role.accept v = .ok w → w.isNaN = false) :
    ∃ e, s'.entry? uid = some e ∧ e.IsAhead role t s'.store
      (if behind = [] then [] else behind ++ queued t role.default s s') := by
  obtain ⟨e, he, hahead⟩ := hs.entry
  obtain ⟨held, w, hheld, haccept, hsync, hstore⟩ := exists_onEdit_of_perform? hs.orderly h
  rw [hs.sameRole held hheld] at haccept
  unfold entry?
  rw [hsync]
  rcases s.renderer.sync.onEdit_cases uid w s.store with
    ⟨-, hunbound⟩ | ⟨e', t', he', ht', ⟨root, hroot, hedit⟩ | ⟨error, hedit⟩⟩
  · have hnone := hunbound e he
    rw [Entry.target?_eq_some_iff.2 hahead.bound] at hnone
    cases hnone
  · obtain rfl := Option.some.inj (he.symm.trans he')
    obtain rfl := Binding.resolved.inj (hahead.bound.symm.trans ht')
    have hequal := Role.eq_self_of_accept haccept (hnumber w haccept)
    have hwrote := Entry.isAhead_wrote hahead haccept hequal hroot
    rw [hedit] at hstore ⊢
    refine ⟨e.wrote w, (Registry.get?_set _ uid uid _).trans (if_pos rfl), ?_⟩
    rw [queued_of_replace hstore, reported_write hroot, hstore]
    exact hwrote
  · rw [hedit] at hstore ⊢
    refine ⟨e, he, ?_⟩
    rw [queued_of_eq hstore, List.append_nil, hstore]
    split
    · next hnil =>
      rw [hnil] at hahead
      exact hahead
    · exact hahead

/-! ## Calls -/

/-- What a call makes of the entry is all that it could make of the field. -/
theorem isAhead_of_step (hs : s.IsAhead uid t role behind) (hstep : Step s s')
    {behind' : List Value}
    (hentry : ∃ e, s'.entry? uid = some e ∧ e.IsAhead role t s'.store behind') :
    s'.IsAhead uid t role behind' := by
  refine ⟨isOrderly_of_step hs.orderly hstep, ?_, ?_, hentry⟩
  · exact Nat.le_trans hs.issued (registry_of_step hstep hs.orderly.unique).2
  · intro h' hheld
    rcases held_cases hstep hheld with
      ⟨h, hold, heq | ⟨w, heq⟩⟩ | ⟨_, _, d, control, stored, -, -, hnew, -⟩
    · rw [heq]
      exact hs.sameRole h hold
    · rw [heq]
      exact hs.sameRole h hold
    · -- The number of a field that is rendered later is above all that were issued.
      have hissued := hs.issued
      omega

theorem isAhead_of_own (hs : s.IsAhead uid t role behind) {v : Value}
    (h : s.perform? (.edit uid v) = some s')
    (hnumber : ∀ w, role.accept v = .ok w → w.isNaN = false) :
    s'.IsAhead uid t role
      (if behind = [] then [] else behind ++ queued t role.default s s') :=
  isAhead_of_step hs (step_of_perform? h) (entry_of_own hs h hnumber)

theorem isAhead_of_isOthers (hs : s.IsAhead uid t role behind) {call : Call}
    (hothers : call.IsOthers uid) (h : s.perform? call = some s')
    (hsame : s'.store.valueOr t role.default = s.store.valueOr t role.default) :
    s'.IsAhead uid t role (behind ++ queued t role.default s s') := by
  obtain ⟨e, he, hahead⟩ := hs.entry
  obtain ⟨he', new, hpending⟩ := entry_of_isOthers hs.orderly hs.issued hothers h he hahead.empty
  refine isAhead_of_step hs (step_of_perform? h) ⟨e, he', ?_⟩
  rw [queued_of_pending hpending]
  exact Entry.isAhead_queued hahead hpending hsame

/-- A delivery names the field if the field hears something of what is queued. -/
theorem mem_deliver_iff (hs : s.IsAhead uid t role behind) {e : Entry}
    (he : s.entry? uid = some e) (hahead : e.IsAhead role t s.store behind) :
    uid ∈ (s.renderer.deliver s.store).1 ↔
      e.hears (reported t role.default s.store.pending) = true := by
  have hreport := Renderer.mem_report_iff s.store.pending [] hs.orderly.unique he hahead.bound
  rw [hahead.default] at hreport
  exact hreport.trans (by simp)

theorem isAhead_of_deliver (hs : s.IsAhead uid t role behind) (h : s.perform? .deliver = some s')
    (hagrees : ∀ v ∈ behind, role.rule.eq (s.store.valueOr t role.default) v = true) :
    s'.IsAhead uid t role [] := by
  obtain ⟨e, he, hahead⟩ := hs.entry
  have hsilent := Entry.not_hears_of_isAhead hahead hagrees
  refine isAhead_of_step hs (step_of_perform? h) ?_
  obtain rfl := Option.some.inj h
  exact ⟨_, Renderer.get?_report [] he hahead.bound, Entry.isAhead_told hahead hsilent⟩

/-- The entry of a new field knows what the store holds. -/
theorem isAhead_of_render (hs : s.IsOrderly) (hpending : s.store.pending = []) {text : String}
    {context : FileRef} {field : LiveField} {r : Renderer}
    (hrender : s.renderer.render text context s.store = .ok (.live field, r))
    (hbound : (r.sync.registry.get? field.uid).map (·.binding) = some (.resolved t)) :
    (s.withLive field r).IsAhead field.uid t field.control.role [] := by
  have hstep : Step s (s.withLive field r) := .live s text context field r hrender
  have hordered := isOrderly_of_step hs hstep
  have hheld : (s.withLive field r).held.get? field.uid =
      some ⟨field, (r.sync.registry.get? field.uid).map (·.binding), []⟩ :=
    (Keyed.get?_put _ _ _ _).trans (if_pos rfl)
  refine ⟨hordered, hordered.issued _ _ hheld, ?_, ?_⟩
  · intro h hsame
    obtain rfl := Option.some.inj (hheld.symm.trans hsame)
    rfl
  · rcases Renderer.render_cases hrender with
      ⟨-, message, hplaceholder⟩ | ⟨d, control, stored, -, hlive, rfl⟩
    · cases hplaceholder
    · obtain rfl := Rendered.live.inj hlive
      have hentry := (Renderer.get?_mounted s.renderer d context control s.store _).trans
        (if_pos rfl)
      have hmap := congrArg (Option.map (·.binding)) hentry
      have hbinding := Option.some.inj (hmap.symm.trans hbound)
      refine ⟨_, hentry, ?_⟩
      refine ⟨hbinding, rfl, rfl, rfl, Entry.lastKnown_start hbinding, ⟨[], [], ?_, rfl, ?_⟩, ?_,
        ?_, ?_⟩
      · exact congrArg (reported t _) hpending
      · exact List.Sublist.slnil
      · exact nofun
      · exact nofun
      · exact fun hne => absurd rfl hne

/-! ## Runs -/

theorem isAhead_of_ownRun {start : Session} (hstart : start.IsAhead uid t role [])
    {flag : Bool} (hrun : OwnRun uid t role start s behind flag) (hflag : flag = false) :
    s.IsAhead uid t role behind := by
  -- Along the run every delivery was silent, since the flag is still down at its end.
  induction hrun with
  | nil => exact hstart
  | own _ call isNumber ih => exact isAhead_of_own (ih hflag) call isNumber
  | others _ isOthers call same ih => exact isAhead_of_isOthers (ih hflag) isOthers call same
  | deliver _ call ih =>
    obtain ⟨hbefore, hnone⟩ := Bool.or_eq_false_iff.1 hflag
    apply isAhead_of_deliver (ih hbefore) call
    intro v hv
    simpa using List.any_eq_false.1 hnone v hv

/-- As long as the value of a field is changed by the field only, nothing waits for the field, and a
delivery names it if not all that is reported from the first change on that it did not make agrees
with the value that it has; it does not name it otherwise. -/
theorem isSilent_iff_of_ownRun {s₁ s₂ : Session} {text : String} {context : FileRef}
    {field : LiveField} {r : Renderer} (hblank : s.IsBlank) (hreach : Reaches s s₁)
    (hpending : s₁.store.pending = [])
    (hrender : s₁.renderer.render text context s₁.store = .ok (.live field, r))
    (hbound : (r.sync.registry.get? field.uid).map (·.binding) = some (.resolved t))
    (hrole : field.control.role = role)
    (hrun : OwnRun field.uid t role (s₁.withLive field r) s₂ behind false) :
    (∃ e, s₂.entry? field.uid = some e ∧ e.mailbox.slot = none) ∧
      ((∀ v ∈ behind, role.rule.eq (s₂.store.valueOr t role.default) v = true) →
        field.uid ∉ (s₂.renderer.deliver s₂.store).1) ∧
      (s₁.renderer.parser.IsLoaded → role.RereadsItsDates →
        field.uid ∉ (s₂.renderer.deliver s₂.store).1 →
          ∀ v ∈ behind, role.rule.eq (s₂.store.valueOr t role.default) v = true) := by
  subst hrole
  have hordered := isOrderly_of_reaches (isOrderly_of_isBlank hblank) hreach
  have hstart := isAhead_of_render hordered hpending hrender hbound
  have hs := isAhead_of_ownRun hstart hrun rfl
  obtain ⟨e, he, hahead⟩ := hs.entry
  have hnamed := mem_deliver_iff hs he hahead
  refine ⟨⟨e, he, by rw [hahead.empty]⟩, ?_, ?_⟩
  · intro hagrees hmem
    have hsilent := Entry.not_hears_of_isAhead hahead hagrees
    rw [hnamed.1 hmem] at hsilent
    cases hsilent
  · intro hloaded hdates hnot
    rw [hnamed, Bool.not_eq_true] at hnot
    rcases Renderer.render_cases hrender with
      ⟨-, message, hplaceholder⟩ | ⟨d, control, stored, hrenders, hlive, -⟩
    · cases hplaceholder
    · obtain rfl := Rendered.live.inj hlive
      have hdefault :=
        Control.keepsDefault_of_read hloaded hrenders.read hrenders.controls hdates
      exact Entry.agrees_of_not_hears hahead hdefault hdates hnot

/-! ## Two runs -/

/-- The role of the field for the due date. -/
def dueRole : Role := .date defaultDateFormat none none none

/-- Somebody else gives the document a title while the write of the field is on its way back. -/
def dueTitled : Session :=
  { dueEdited with
    store := dueEdited.store.replace ⟨"a.md"⟩
      (.mapping [(.string "due", .string "2024-06-02"), (.string "title", .string "Plan")]) }

theorem isBlank_dueStart : dueStart.IsBlank := ⟨rfl, rfl⟩

theorem render_dueStart : dueStart.renderer.render "INPUT[date:due]" ⟨"a.md"⟩ dueStart.store =
    .ok (.live (dueHeld "2024-06-01" []).field, dueLive.renderer) := by
  decide +kernel

theorem ownRun_dueTitled :
    OwnRun 1 dueTarget dueRole (dueStart.withLive (dueHeld "2024-06-01" []).field dueLive.renderer)
      dueTitled [.string "2024-06-02"] false := by
  have hstart : dueStart.withLive (dueHeld "2024-06-01" []).field dueLive.renderer = dueLive := by
    decide +kernel
  have haccept : dueRole.accept (.string "2024-6-2") = .ok (.string "2024-06-02") := by
    decide +kernel
  have hown : OwnRun 1 dueTarget dueRole dueLive dueEdited [] false := by
    have hedit : dueLive.perform? (.edit 1 (.string "2024-6-2")) = some dueEdited := by
      decide +kernel
    apply OwnRun.own .nil hedit
    intro w hw
    obtain rfl := Except.ok.inj (haccept.symm.trans hw)
    rfl
  have hreported : queued dueTarget dueRole.default dueEdited dueTitled =
      [.string "2024-06-02"] := by
    decide +kernel
  have hothers : OwnRun 1 dueTarget dueRole dueLive dueTitled
      ([] ++ queued dueTarget dueRole.default dueEdited dueTitled) false :=
    .others hown (show Call.IsOthers 1 (.replace ⟨"a.md"⟩ _) from trivial) rfl (by decide +kernel)
  rw [hreported] at hothers
  rw [hstart]
  exact hothers

/-- The title reports the date that the field has, so that the field hears nothing. -/
theorem isSilent_iff_of_ownRun_dueTitled :
    dueStart.IsBlank ∧ dueStart.store.pending = [] ∧
      OwnRun 1 dueTarget dueRole
        (dueStart.withLive (dueHeld "2024-06-01" []).field dueLive.renderer) dueTitled
        [.string "2024-06-02"] false ∧
      1 ∉ (dueTitled.renderer.deliver dueTitled.store).1 ∧
      dueStart.renderer.parser.IsLoaded ∧ dueRole.RereadsItsDates ∧
      dueRole.rule.eq (dueTitled.store.valueOr dueTarget dueRole.default)
        (.string "2024-06-02") = true := by
  obtain ⟨-, hnot, hagrees⟩ := isSilent_iff_of_ownRun isBlank_dueStart .refl rfl render_dueStart rfl
    rfl ownRun_dueTitled
  have hnot := hnot (by decide +kernel)
  have hagrees := hagrees isFresh_dueStart.loaded rereadsDates_default hnot
  exact ⟨isBlank_dueStart, rfl, ownRun_dueTitled, hnot, isFresh_dueStart.loaded,
    rereadsDates_default, hagrees _ (List.mem_singleton_self _)⟩

/-- A write that is queued behind the title is not awaited any more when its echo comes, because the
title reports the write before it. -/
theorem exists_ownRun_named :
    ¬ ∀ (s s₁ s₂ : Session) (text : String) (context : FileRef) (field : LiveField) (r : Renderer)
      (t : Target) (behind : List Value) (flag : Bool), s.IsBlank → Reaches s s₁ →
      s₁.store.pending = [] →
      s₁.renderer.render text context s₁.store = .ok (.live field, r) →
      (r.sync.registry.get? field.uid).map (·.binding) = some (.resolved t) →
      OwnRun field.uid t field.control.role (s₁.withLive field r) s₂ behind flag →
      field.uid ∉ (s₂.renderer.deliver s₂.store).1 := by
  intro hall
  have haccept : dueRole.accept (.string "2024-06-03") = .ok (.string "2024-06-03") := by
    decide +kernel
  have hnamed : (dueTitled.perform? (.edit 1 (.string "2024-06-03"))).any
      (fun s => (s.renderer.deliver s.store).1.contains 1) = true := by
    decide +kernel
  obtain ⟨s₂, hedit, hcontains⟩ := (Option.any_eq_true _ _).1 hnamed
  have hrun := OwnRun.own ownRun_dueTitled hedit (by
    intro w hw
    obtain rfl := Except.ok.inj (haccept.symm.trans hw)
    rfl)
  have hnot := hall dueStart dueStart s₂ _ _ _ _ dueTarget _ _ isBlank_dueStart .refl rfl
    render_dueStart rfl hrun
  exact hnot (List.contains_iff_mem.1 hcontains)

end Session

end BoundFields
