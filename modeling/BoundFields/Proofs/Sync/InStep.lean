import BoundFields.Proofs.Sync.Registry

/-!
# Entries in step with the store

An entry is in step with the store if it would await no write and would agree with the store once
it had been told all changes that the store has not reported (`Entry.InStep`). That an entry still
awaits its own writes is no obstacle: their echoes are among these changes. Every operation on the
store or the entry keeps an entry in step, so that it agrees with the store whenever there is
nothing to report.
-/

set_option autoImplicit false

namespace BoundFields

namespace Entry

/-! ## Mailboxes -/

/-- What waits in the mailbox has no part in what an entry makes of a value. -/
theorem receive_mailbox (e : Entry) (m : Mailbox Value) (v : Value) :
    ∃ m', ({ e with mailbox := m } : Entry).receive v = ((e.receive v).1,
      { (e.receive v).2 with mailbox := m' }) := by
  unfold receive
  simp only
  cases echoRest? e.rule v e.unechoed with
  | some rest => exact ⟨m, rfl⟩
  | none =>
    cases e.rule.eq e.lastKnown v with
    | true => exact ⟨m, rfl⟩
    | false => exact ⟨⟨some v⟩, rfl⟩

theorem notice_mailbox (e : Entry) (m : Mailbox Value) (change : Change) :
    ∃ m', ({ e with mailbox := m } : Entry).notice change = ((e.notice change).1,
      { (e.notice change).2 with mailbox := m' }) := by
  unfold notice target?
  simp only
  split
  · split
    · exact receive_mailbox e m _
    · exact ⟨m, rfl⟩
  · exact ⟨m, rfl⟩

theorem told_mailbox (e : Entry) (m : Mailbox Value) (changes : List Change) :
    ∃ m', ({ e with mailbox := m } : Entry).told changes =
      { e.told changes with mailbox := m' } := by
  induction changes using List.reverseRecOn with
  | nil => exact ⟨m, rfl⟩
  | append_singleton changes change ih =>
    obtain ⟨m₁, h₁⟩ := ih
    obtain ⟨m₂, h₂⟩ := notice_mailbox (e.told changes) m₁ change
    rw [told_concat, told_concat, h₁, h₂]
    exact ⟨m₂, rfl⟩

/-- A value that nothing waits after was not news. -/
theorem slot_eq_none_of_receive {e : Entry} {v : Value}
    (h : (e.receive v).2.mailbox.slot = none) :
    e.mailbox.slot = none ∧ (e.receive v).2.lastKnown = e.lastKnown := by
  rcases e.receive_cases v with ⟨rest, -, heq⟩ | ⟨-, ⟨-, heq⟩ | heq⟩
  · rw [heq] at h ⊢
    exact ⟨h, rfl⟩
  · rw [heq] at h ⊢
    exact ⟨h, rfl⟩
  · rw [heq] at h
    exact absurd h (by simp)

theorem slot_eq_none_of_notice {e : Entry} {change : Change}
    (h : (e.notice change).2.mailbox.slot = none) :
    e.mailbox.slot = none ∧ (e.notice change).2.lastKnown = e.lastKnown := by
  unfold notice at h ⊢
  split at h
  · split at h
    · next hfile =>
      rw [if_pos hfile]
      exact slot_eq_none_of_receive h
    · next hfile =>
      rw [if_neg hfile]
      exact ⟨h, rfl⟩
  · exact ⟨h, rfl⟩

/-- An entry for which nothing waits after some changes knows what it knew before them. -/
theorem slot_eq_none_of_told {e : Entry} {changes : List Change}
    (h : (e.told changes).mailbox.slot = none) :
    e.mailbox.slot = none ∧ (e.told changes).lastKnown = e.lastKnown := by
  induction changes using List.reverseRecOn with
  | nil => exact ⟨h, rfl⟩
  | append_singleton changes change ih =>
    rw [told_concat] at h ⊢
    obtain ⟨hslot, hknown⟩ := slot_eq_none_of_notice h
    obtain ⟨hslot₀, hknown₀⟩ := ih hslot
    exact ⟨hslot₀, hknown.trans hknown₀⟩

/-! ## Entries in step -/

/-- The entry of a field that is bound to `t`, which awaits no write and agrees with the store once
it has been told what the store did not report yet. -/
structure InStep (store : Store) (t : Target) (e : Entry) : Prop where
  bound : e.binding = .resolved t
  posted : e.IsPosted
  echoed : (e.told store.pending).unechoed = []
  agrees : e.rule.Agrees (e.told store.pending).lastKnown (store.valueOr t e.default)

end Entry

/-- A store carries its entries over to another one if none of them gets out of step. -/
def Store.Carries (store store' : Store) : Prop :=
  ∀ t e, Entry.InStep store t e → Entry.InStep store' t e

namespace Entry

/-! ## Changes of the store -/

theorem carries_refl (store : Store) : store.Carries store := fun _ _ h => h

/-- A replaced document gets one more change, which brings the entries of its fields to what it
holds now. -/
theorem carries_replace (store : Store) (file : FileRef) (metadata : Value) :
    store.Carries (store.replace file metadata) := by
  intro t e h
  have hpending : (store.replace file metadata).pending = store.pending ++ [⟨file, metadata⟩] := rfl
  have hsame := sameField_told e store.pending
  have hbound := hsame.binding.trans h.bound
  by_cases hfile : file = t.file
  · -- The entry awaits nothing when the new change comes, so that it takes over its value.
    have hreceive : (e.told store.pending).notice ⟨file, metadata⟩ =
        (e.told store.pending).receive ((⟨file, metadata⟩ : Change).valueOr t e.default) := by
      rw [notice_of_file_eq hbound hfile, hsame.default]
    have hagrees := agrees_receive h.echoed ((⟨file, metadata⟩ : Change).valueOr t e.default)
    rw [← hreceive, ← told_concat, ← hpending] at hagrees
    refine ⟨h.bound, h.posted, hagrees.1, ?_⟩
    rw [Store.valueOr_replace, if_pos hfile, ← hsame.rule]
    exact hagrees.2
  · have hkeep : e.told (store.replace file metadata).pending = e.told store.pending := by
      rw [hpending, told_concat, notice_of_file_ne hbound hfile]
    refine ⟨h.bound, h.posted, ?_, ?_⟩
    · rw [hkeep]
      exact h.echoed
    · rw [hkeep, Store.valueOr_replace, if_neg hfile]
      exact h.agrees

theorem carries_write (store : Store) (t : Target) (v : Value) :
    store.Carries (store.write t v).2 := by
  rcases store.write_cases t v with ⟨root, -, hwrite⟩ | ⟨error, hwrite⟩
  · rw [hwrite]
    exact carries_replace store t.file root
  · rw [hwrite]
    exact carries_refl store

/-! ## Changes of the entry -/

/-- A new entry knows what the store holds. -/
theorem lastKnown_start {store : Store} {d : Declaration} {context : FileRef} {control : Control}
    {index : FileIndex} {policy : AmbiguityPolicy} {t : Target}
    (ht : (start d context control index policy store).binding = .resolved t) :
    (start d context control index policy store).lastKnown =
      store.valueOr t control.role.default := by
  have htarget : (Binding.ofDeclaration d context index policy).target? = some t :=
    target?_eq_some_iff.2 ht
  unfold start Store.valueOr
  simp only [htarget, Option.bind_some]

/-- An entry that awaits no write is in step if a change of its document is still to come, or if it
agrees with the store already. -/
theorem inStep_of_unechoed {store : Store} (hsettles : store.Settles store.pending) {t : Target}
    {e : Entry} (hbound : e.binding = .resolved t) (hposted : e.IsPosted)
    (hechoed : e.unechoed = [])
    (hknown : newest? store.pending t.file = none →
      e.rule.Agrees e.lastKnown (store.valueOr t e.default)) : e.InStep store t := by
  obtain ⟨htold, hnewest⟩ := agrees_told hbound hechoed store.pending
  refine ⟨hbound, hposted, htold, ?_⟩
  cases hchange : newest? store.pending t.file with
  | none =>
    rw [hchange] at hnewest
    rw [hnewest]
    exact hknown hchange
  | some change =>
    -- The newest of the changes to come is up to date.
    rw [hchange] at hnewest
    rw [← Store.valueOr_of_settles hsettles hchange]
    exact hnewest

/-- What the store has yet to report is no newer than what a new entry knows. -/
theorem inStep_start {store : Store} (hsettles : store.Settles store.pending) (d : Declaration)
    (context : FileRef) (control : Control) (index : FileIndex) (policy : AmbiguityPolicy)
    {t : Target} (ht : (start d context control index policy store).binding = .resolved t) :
    (start d context control index policy store).InStep store t := by
  apply inStep_of_unechoed hsettles ht (.inr rfl) rfl
  intro _
  exact .inl (lastKnown_start ht)

theorem inStep_emptied {store : Store} {t : Target} {e : Entry} (h : e.InStep store t) :
    InStep store t { e with mailbox := {} } := by
  obtain ⟨m, hm⟩ := told_mailbox e {} store.pending
  refine ⟨h.bound, .inl rfl, ?_, ?_⟩
  · rw [hm]
    exact h.echoed
  · rw [hm]
    exact h.agrees

/-- The write of a field whose other writes are all echoed by then is echoed last, when the store
holds what was written. -/
theorem inStep_wrote_of_echoed {store : Store} {t : Target} {e : Entry} {v root : Value}
    (hbinding : e.binding = .resolved t) (hechoed : (e.told store.pending).unechoed = [])
    (hroot : root.read? t.path = some v) :
    (e.wrote v).InStep (store.replace t.file root) t := by
  have hpending : (store.replace t.file root).pending = store.pending ++ [⟨t.file, root⟩] := rfl
  have hbound : (e.wrote v).binding = .resolved t := hbinding
  have hsame := sameField_told (e.wrote v) store.pending
  have hvalue := Change.valueOr_of_read? hroot t.file e.default
  have hstore : (store.replace t.file root).valueOr t e.default = v := by
    rw [Store.valueOr_replace, if_pos rfl, hvalue]
  have hnotice : (e.wrote v).told (store.replace t.file root).pending =
      (((e.wrote v).told store.pending).receive v).2 := by
    rw [hpending, told_concat, notice_of_file_eq (hsame.binding.trans hbound) rfl, hsame.default]
    exact congrArg (fun x => (((e.wrote v).told store.pending).receive x).2) hvalue
  -- All other writes are echoed before, so that at most this one is awaited.
  have hawaited : ((e.wrote v).told store.pending).unechoed.length ≤ 1 ∧
      ∀ w, ((e.wrote v).told store.pending).unechoed.getLast? = some w →
        ((e.wrote v).told store.pending).lastKnown = w := by
    rcases told_wrote e v store.pending with hnone | ⟨hbehind, hknown⟩
    · rw [hnone]
      exact ⟨Nat.zero_le _, fun w hw => by cases hw⟩
    · rw [hechoed, List.nil_append] at hbehind
      rw [hbehind, hknown]
      exact ⟨Nat.le_refl _, fun w hw => Option.some.inj hw⟩
  have hnone := unechoed_receive_eq_nil hawaited.1 v
  have hagrees := agrees_of_receive v hawaited.2 hnone
  rw [hsame.rule, ← hnotice] at hagrees
  rw [← hnotice] at hnone
  refine ⟨hbound, .inl rfl, hnone, ?_⟩
  exact hstore.symm ▸ hagrees

theorem inStep_wrote {store : Store} {t : Target} {e : Entry} {v root : Value}
    (h : e.InStep store t) (hroot : root.read? t.path = some v) :
    (e.wrote v).InStep (store.replace t.file root) t :=
  inStep_wrote_of_echoed h.bound h.echoed hroot

/-- An entry in step that is told the oldest change is in step with what remains to be told. -/
theorem inStep_noticed {store : Store} {t : Target} {e : Entry} {change : Change}
    {later : List Change} (h : e.InStep { store with pending := change :: later } t) :
    (e.notice change).2.InStep { store with pending := later } t := by
  have hsame := sameField_notice e change
  refine ⟨hsame.binding.trans h.bound, isPosted_notice h.posted change, h.echoed, ?_⟩
  rw [hsame.rule, hsame.default]
  exact h.agrees

/-- An entry that was told everything is in step with the store that has nothing to report. -/
theorem inStep_told {store : Store} {t : Target} {e : Entry} (h : e.InStep store t) :
    (e.told store.pending).InStep { store with pending := [] } t := by
  have hsame := sameField_told e store.pending
  refine ⟨hsame.binding.trans h.bound, isPosted_told h.posted store.pending, h.echoed, ?_⟩
  rw [hsame.rule, hsame.default]
  exact h.agrees

end Entry

end BoundFields
