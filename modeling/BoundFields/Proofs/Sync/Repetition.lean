import BoundFields.Proofs.Control.Equivalence
import BoundFields.Proofs.Sync.Notification
import BoundFields.Proofs.Target.Index

/-!
# The same change once more

A change that is reported a second time is news to nobody, unless writes are awaited: the document
is in the index by now, a target that it could not settle is looked up in the same index again
(`Entry.retry_noticed`), and an entry that awaits no write knows a value that agrees with the change
(`Entry.receive_receive`). That it finds the value equal once more takes a value that is equal to
itself. What a document holds is, if it is a number where it has the form of one
(`EqualityRule.eq_self`); what a field is told where the document holds nothing is its default, and
that of an accepted control is equal to itself (`hasSteadyDefaults_run`).
-/

set_option autoImplicit false

namespace BoundFields

/-! ## One entry -/

namespace Entry

/-- What an entry knows that awaits nothing is not news to it. -/
theorem receive_of_known {e : Entry} {v : Value} (h : e.unechoed = [])
    (hknown : e.rule.eq e.lastKnown v = true) : e.receive v = (false, e) := by
  obtain ⟨declaration, context, binding, rule, default, lastKnown, unechoed, mailbox⟩ := e
  obtain rfl : unechoed = [] := h
  exact if_pos hknown

/-- A value is not news the second time. -/
theorem receive_receive {e : Entry} {v : Value} (h : e.unechoed = [])
    (hself : e.rule.eq v v = true) : (e.receive v).2.receive v = (false, (e.receive v).2) := by
  obtain ⟨lastKnown, unechoed, mailbox, hafter⟩ := e.exists_receive_eq v
  have hrule : (e.receive v).2.rule = e.rule := by rw [hafter]
  obtain ⟨hnone, hagrees⟩ := agrees_receive h v
  apply receive_of_known hnone
  rw [hrule]
  rcases hagrees with heq | heq
  · rw [heq]
    exact hself
  · exact heq

/-- The value that a change has for the field of an entry is equal to itself. -/
def HearsEqual (change : Change) (e : Entry) : Prop :=
  ∀ t, e.binding = .resolved t → t.file = change.file →
    e.rule.eq (change.valueOr t e.default) (change.valueOr t e.default) = true

theorem notice_notice {e : Entry} {change : Change} (h : e.unechoed = [])
    (hself : e.HearsEqual change) :
    (e.notice change).2.notice change = (false, (e.notice change).2) := by
  have hsame := e.sameField_notice change
  by_cases hin : ∃ t, e.IsBoundIn change.file t
  · obtain ⟨t, ht, hfile⟩ := hin
    rw [notice_of_file_eq (hsame.binding.trans ht) hfile.symm, hsame.default,
      notice_of_file_eq ht hfile.symm]
    exact receive_receive h (hself t ht hfile)
  · apply notice_of_forall_ne
    intro t ht hfile
    exact hin ⟨t, hsame.binding.symm.trans ht, hfile.symm⟩

/-- An entry that is bound as it would be by now is not bound anew. -/
theorem retry_of_binding_eq {e : Entry} {index : FileIndex} {policy : AmbiguityPolicy}
    (h : e.binding = .ofDeclaration e.declaration e.context index policy) :
    e.retry index policy = e := by
  unfold retry
  split
  · rw [← h]
  · rfl

/-- A target that was looked up once is not found in another place the second time. -/
theorem retry_noticed (e : Entry) (index : FileIndex) (policy : AmbiguityPolicy)
    (change : Change) : ((e.retry index policy).notice change).2.retry index policy =
      ((e.retry index policy).notice change).2 := by
  -- Only a target that was not found is looked up again, and in the same index it is found or
  -- missed as before.
  have hremains := e.remains_noticed index policy change
  by_cases hbound : ∀ cause, e.binding ≠ .unresolved cause
  · apply retry_of_forall_ne
    rw [hremains.bound hbound]
    exact hbound
  · obtain ⟨cause, hcause⟩ := Classical.not_forall_not.1 hbound
    apply retry_of_binding_eq
    rw [hremains.declaration, hremains.context]
    exact binding_noticed hcause index policy change

/-- What a change holds at the field of an entry that is bound in the document. -/
def heldBy? (e : Entry) (change : Change) : Option Value :=
  e.target?.bind fun t => if t.file = change.file then change.snapshot.read? t.path else none

end Entry

/-! ## All entries -/

namespace Synchronizer

variable {s : Synchronizer} {change : Change}

/-- No field awaits a write of its own. -/
def IsEchoed (s : Synchronizer) : Prop := s.registry.All fun e => e.unechoed = []

instance (s : Synchronizer) : Decidable s.IsEchoed := inferInstanceAs (Decidable (s.registry.All _))

/-- A change that leaves every entry as it is leaves everything as it is, once the document is in
the index. -/
theorem onChange_of_all (hindex : s.index.insert change.file = s.index)
    (h : s.registry.All fun e => s.tell change e = (false, e)) : s.onChange change = ([], s) := by
  have hnobody : s.registry.All fun e => (s.tell change e).1 = false :=
    fun p hp => congrArg Prod.fst (h p hp)
  have hsame : s.registry.All fun e => (s.tell change e).2 = e :=
    fun p hp => congrArg Prod.snd (h p hp)
  have hnone : s.registry.find (fun _ => false) = [] := by simp [Registry.find]
  rw [onChange_eq, Registry.find_congr hnobody, Registry.mapEntries_of_all hsame, hindex, hnone]

/-- An entry that has been told a change takes no notice of it any more. -/
theorem tell_tell {e : Entry} (h : e.unechoed = [])
    (hself : (s.tell change e).2.HearsEqual change) :
    (s.onChange change).2.tell change (s.tell change e).2 = (false, (s.tell change e).2) := by
  have hindex : (s.onChange change).2.index.insert change.file = s.index.insert change.file :=
    s.index.insert_insert change.file
  have hpolicy : (s.onChange change).2.policy = s.policy := rfl
  have hretry := e.retry_noticed (s.index.insert change.file) s.policy change
  obtain ⟨binding, hbinding⟩ := e.exists_retry_eq (s.index.insert change.file) s.policy
  have hsame := (e.retry (s.index.insert change.file) s.policy).sameField_notice change
  unfold tell at hself ⊢
  rw [hindex, hpolicy, hretry]
  apply Entry.notice_notice
  · rw [hbinding]
    exact h
  · intro t ht hfile
    have hequal := hself t (hsame.binding.trans ht) hfile
    rw [hsame.rule, hsame.default] at hequal
    exact hequal

/-- A change that is reported twice names nobody the second time, and changes nothing. -/
theorem onChange_onChange (hs : s.IsEchoed)
    (hself : (s.onChange change).2.registry.All (Entry.HearsEqual change)) :
    (s.onChange change).2.onChange change = ([], (s.onChange change).2) := by
  have hregistry : (s.onChange change).2.registry =
      s.registry.mapEntries fun e => (s.tell change e).2 := by
    rw [onChange_eq]
  apply onChange_of_all (s.index.insert_insert change.file)
  rw [hregistry, Registry.all_mapEntries] at hself ⊢
  exact fun p hp => tell_tell (hs p hp) (hself p hp)

/-! ## Defaults -/

/-- Every field finds its default equal to itself. -/
def HasSteadyDefaults (s : Synchronizer) : Prop :=
  s.registry.All fun e => e.rule.eq e.default e.default = true

instance (s : Synchronizer) : Decidable s.HasSteadyDefaults :=
  inferInstanceAs (Decidable (s.registry.All _))

/-- A call does not make a field live whose control is not built from an accepted declaration. -/
def Call.IsAccepted : Call → Prop
  | .attach _ _ control _ => control.role.IsAccepted
  | _ => True

/-- What holds of an entry whatever becomes of its field holds of all entries after a call that
makes no other field live. -/
theorem all_perform {P : Entry → Prop} (hkeep : ∀ e e', Entry.Remains e e' → P e → P e')
    (hs : s.registry.All P) {call : Call}
    (hnew : ∀ d context control store, call = .attach d context control store →
      P (Entry.start d context control s.index s.policy store)) :
    (s.perform call).registry.All P := by
  cases call with
  | attach d context control store => exact hs.register (hnew d context control store rfl)
  | detach uid => exact hs.unregister uid
  | setIndex index => exact hs
  | report change =>
    show (s.onChange change).2.registry.All P
    rw [onChange_eq, Registry.all_mapEntries]
    exact fun p hp => hkeep p.2 _ (p.2.remains_noticed _ s.policy change) (hs p hp)
  | edit uid v store =>
    show (s.onEdit uid v store).2.1.registry.All P
    rcases s.onEdit_cases uid v store with
      ⟨hedit, -⟩ | ⟨e, t, he, -, ⟨root, -, hedit⟩ | ⟨error, hedit⟩⟩
    · rw [hedit]
      exact hs
    · rw [hedit]
      exact hs.set (hkeep e _ ⟨rfl, rfl, rfl, rfl, fun _ => rfl⟩ (hs.get? he))
    · rw [hedit]
      exact hs
  | take uid =>
    show (s.takePending uid).2.registry.All P
    cases he : s.registry.get? uid with
    | none =>
      rw [takePending_of_get?_eq_none he]
      exact hs
    | some e =>
      rw [takePending_of_get? he]
      exact hs.set (hkeep e _ ⟨rfl, rfl, rfl, rfl, fun _ => rfl⟩ (hs.get? he))

theorem hasSteadyDefaults_perform (hs : s.HasSteadyDefaults) {call : Call}
    (hcall : call.IsAccepted) : (s.perform call).HasSteadyDefaults := by
  apply all_perform _ hs
  · rintro d context control store rfl
    exact Role.IsAccepted.eq_default_self hcall
  · intro e e' hremains hsteady
    rw [hremains.rule, hremains.default]
    exact hsteady

/-- In every run the fields have such defaults, if they are made live with accepted controls. -/
theorem hasSteadyDefaults_run (index : FileIndex) (policy : AmbiguityPolicy)
    {calls : List Call} (hcalls : ∀ call ∈ calls, call.IsAccepted) :
    (run { index, policy } calls).HasSteadyDefaults := by
  refine run_induction (P := HasSteadyDefaults) (fun p hp => by cases hp) ?_
  intro call hcall s hs
  exact hasSteadyDefaults_perform hs (hcalls call hcall)

/-! ## The whole call -/

/-- No field is told a number that is none. -/
def HearsNumbers (s : Synchronizer) (change : Change) : Prop :=
  s.registry.All fun e => ∀ v ∈ e.heldBy? change, v.isNaN = false

instance (s : Synchronizer) (change : Change) : Decidable (s.HearsNumbers change) :=
  inferInstanceAs (Decidable (s.registry.All _))

/-- A change that is reported once more reaches nobody and changes nothing, unless a field is told a
number that is none, which the rule for numbers does not find equal to itself. -/
theorem onChange_again (hs : s.HasSteadyDefaults) (hechoed : s.IsEchoed)
    (hkeys : change.snapshot.HasDistinctKeys)
    (hnumbers : (s.onChange change).2.HearsNumbers change) :
    (s.onChange change).2.onChange change = ([], (s.onChange change).2) := by
  have hsteady : (s.perform (.report change)).HasSteadyDefaults :=
    hasSteadyDefaults_perform hs trivial
  apply onChange_onChange hechoed
  intro p hp t ht hfile
  unfold Change.valueOr
  -- Where the document holds nothing for the field, the field is told its default.
  cases hread : change.snapshot.read? t.path with
  | none => exact hsteady p hp
  | some v =>
    have hheld : p.2.heldBy? change = some v := by
      unfold Entry.heldBy?
      rw [Entry.target?_eq_some_iff.2 ht, Option.bind_some, if_pos hfile, hread]
    exact p.2.rule.eq_self (hkeys.follow? hread) (hnumbers p hp v hheld)

/-- The call that makes the field of a declaration in `a.md` live, if it has a control. -/
def attachment? (d : Declaration) : Option Call :=
  match Control.ofDeclaration d defaultDateFormat with
  | .error _ => none
  | .ok control => some (.attach d ⟨"a.md"⟩ control {})

/-- The call that makes the field of a declaration text in `a.md` live, if there is one. -/
def attach? (text : String) : Option Call :=
  match ({} : Parser).read text with
  | .error _ => none
  | .ok d => attachment? d

theorem isAccepted_of_attach? {text : String} {call : Call} (h : attach? text = some call) :
    call.IsAccepted := by
  unfold attach? at h
  split at h
  · cases h
  · next d hread =>
    unfold attachment? at h
    split at h
    · cases h
    · next control hcontrol =>
      obtain rfl := Option.some.inj h
      obtain ⟨role, hrole, hpure⟩ := Outcome.bind_eq_ok_iff.1 hcontrol
      obtain rfl := Except.ok.inj hpure
      exact ⟨d, defaultDateFormat, ⟨{}, ⟨{}, [], rfl⟩, .inl ⟨text, hread⟩⟩, hrole⟩

/-- Fields of which one waits for a document. -/
def ratedFields : Synchronizer :=
  ({ index := .ofList [⟨"a.md"⟩] } : Synchronizer).run
    (["INPUT[slider:later#rating]", "INPUT[multi_select:a#tags]", "INPUT[toggle]"].filterMap
      attach?)

/-- The slider gets its number from the document that it waits for, and only once. -/
theorem onChange_again_ratedFields :
    (ratedFields.onChange ⟨⟨"later.md"⟩, .mapping [(.string "rating", .string "7")]⟩).1 = [1] ∧
      (ratedFields.onChange
          ⟨⟨"later.md"⟩, .mapping [(.string "rating", .string "7")]⟩).2.onChange
          ⟨⟨"later.md"⟩, .mapping [(.string "rating", .string "7")]⟩ =
        ([], (ratedFields.onChange
          ⟨⟨"later.md"⟩, .mapping [(.string "rating", .string "7")]⟩).2) := by
  have hsteady : ratedFields.HasSteadyDefaults := by
    apply hasSteadyDefaults_run
    intro call hcall
    obtain ⟨text, -, htext⟩ := List.mem_filterMap.1 hcall
    exact isAccepted_of_attach? htext
  have hkeys : (Value.mapping [(.string "rating", .string "7")]).HasDistinctKeys :=
    .mapping (by simpa using .string "rating") (by simpa using .string "7")
      (List.pairwise_singleton _ _)
  refine ⟨by decide +kernel, onChange_again hsteady (by decide +kernel) hkeys ?_⟩
  decide +kernel

/-- A slider that is made by hand, with a default that is no number. -/
def oddDeclaration : Declaration :=
  { fieldType := .slider
    arguments := [⟨.defaultValue, .text "nan", some "nan"⟩]
    isBound := true
    target := some "rating"
    templateName := none }

/-- The field of such a slider. -/
def oddFields : Synchronizer :=
  ({ index := .ofList [⟨"a.md"⟩] } : Synchronizer).run (attachment? oddDeclaration).toList

/-- A default that is no number is news each time, though the document holds nothing at all; and so
is what is no number in a document that a field only finds with the change. -/
theorem not_forall_onChange_again :
    (¬ ∀ (s : Synchronizer) (change : Change), s.IsEchoed → change.snapshot.HasDistinctKeys →
        (s.onChange change).2.HearsNumbers change →
          (s.onChange change).2.onChange change = ([], (s.onChange change).2)) ∧
      ¬ ∀ (s : Synchronizer) (change : Change), s.HasSteadyDefaults → s.IsEchoed →
        change.snapshot.HasDistinctKeys → s.HearsNumbers change →
          (s.onChange change).2.onChange change = ([], (s.onChange change).2) := by
  constructor
  · intro hall
    have hnews := hall oddFields ⟨⟨"a.md"⟩, .mapping []⟩ (by decide +kernel)
      (.mapping nofun nofun .nil) (by decide +kernel)
    exact absurd (congrArg Prod.fst hnews) (by decide +kernel)
  · intro hall
    have hkeys : (Value.mapping [(.string "rating", .number (.float .nan))]).HasDistinctKeys :=
      .mapping (by simpa using .string "rating") (by simpa using .number (.float .nan))
        (List.pairwise_singleton _ _)
    have hnews := hall ratedFields
      ⟨⟨"later.md"⟩, .mapping [(.string "rating", .number (.float .nan))]⟩ (by decide +kernel)
      (by decide +kernel) hkeys (by decide +kernel)
    exact absurd (congrArg Prod.fst hnews) (by decide +kernel)

end Synchronizer

end BoundFields
