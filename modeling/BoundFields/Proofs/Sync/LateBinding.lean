import BoundFields.Proofs.Keyed
import BoundFields.Proofs.Sync.Coalescing
import BoundFields.Proofs.Sync.InStep

/-!
# Fields that are bound late

A feed is a host that hands over all changes in their order (`Feed.perform`). A field whose target
cannot be resolved when it is attached is tried again with every change, of whatever document. When
that binds the field, the synchronizer has no store at hand: the field goes on with its default
until a change of its own document or a write of its own reaches it (`Feed.reached`). From then on
it is in step with the store. So, when no change is on its way, a field that was bound late agrees
with the store exactly if it was reached or its default happens to agree (`Feed.agrees_iff_of_run`).
-/

set_option autoImplicit false

namespace BoundFields

/-! ## Entries that were told nothing -/

namespace Entry

/-- What an entry is like that was attached unresolved and has been told nothing so far. -/
structure IsUntold (e : Entry) : Prop where
  known : e.lastKnown = e.default
  awaits : e.unechoed = []
  posted : e.IsPosted

theorem isUntold_retry {e : Entry} (h : e.IsUntold) (index : FileIndex)
    (policy : AmbiguityPolicy) : (e.retry index policy).IsUntold := by
  obtain ⟨binding, heq⟩ := e.exists_retry_eq index policy
  rw [heq]
  exact ⟨h.known, h.awaits, h.posted⟩

/-- An entry that is attached unresolved starts with its default. -/
theorem isUntold_start {store : Store} {d : Declaration} {context : FileRef} {control : Control}
    {index : FileIndex} {policy : AmbiguityPolicy} {cause : Error}
    (h : Binding.ofDeclaration d context index policy = .unresolved cause) :
    (start d context control index policy store).IsUntold := by
  refine ⟨?_, rfl, .inr rfl⟩
  simp only [start, h, Binding.target?, Option.bind_none, Option.getD_none]

end Entry

/-! ## Feeds -/

/-- The fields that are bound in a document. -/
def Synchronizer.boundIn (s : Synchronizer) (file : FileRef) : List Nat :=
  s.registry.uids.filter fun uid =>
    (s.registry.get? uid).any fun e => e.target?.any fun t => t.file = file

namespace Synchronizer

theorem mem_boundIn_iff {s : Synchronizer} {file : FileRef} {uid : Nat} :
    uid ∈ s.boundIn file ↔
      ∃ e t, s.registry.get? uid = some e ∧ e.binding = .resolved t ∧ t.file = file := by
  simp only [boundIn, List.mem_filter, Option.any_eq_true, decide_eq_true_eq]
  constructor
  · rintro ⟨-, e, he, t, ht, hfile⟩
    exact ⟨e, t, he, Entry.target?_eq_some_iff.1 ht, hfile⟩
  · rintro ⟨e, t, he, ht, hfile⟩
    refine ⟨?_, e, he, t, Entry.target?_eq_some_iff.2 ht, hfile⟩
    exact List.mem_map_of_mem (Keyed.mem_of_get? he)

end Synchronizer

/-- A host that hands over all changes in their order. -/
structure Feed where
  host : Host
  /-- The fields that a change of their document or a write of their own has reached. -/
  reached : List Nat := []
deriving DecidableEq, Repr

namespace Feed

/-- A call of the feed. -/
inductive Call where
  | attach (d : Declaration) (context : FileRef) (control : Control)
  | detach (uid : Nat)
  | setIndex (index : FileIndex)
  | take (uid : Nat)
  | edit (uid : Nat) (v : Value)
  | write (t : Target) (v : Value)
  | replace (file : FileRef) (metadata : Value)
  /-- Takes all changes out of the store. -/
  | drain
  /-- Hands over the oldest change that was taken out. -/
  | notify
deriving DecidableEq, Repr

/-- The feed after a call. -/
def perform (f : Feed) : Call → Feed
  | .attach d context control =>
      let (uid, sync) := f.host.sync.attach d context control f.host.store
      let binding := Binding.ofDeclaration d context f.host.sync.index f.host.sync.policy
      { f with host := { f.host with sync, attached := f.host.attached.put uid binding } }
  | .detach uid => { f with host := { f.host with sync := f.host.sync.detach uid } }
  | .setIndex index => { f with host := { f.host with sync := f.host.sync.setIndex index } }
  | .take uid => { f with host := { f.host with sync := (f.host.sync.takePending uid).2 } }
  | .edit uid v =>
      let (outcome, sync, store) := f.host.sync.onEdit uid v f.host.store
      let reached := match outcome with
        | .ok true => f.reached ++ [uid]
        | _ => f.reached
      { host := { f.host with sync, store }, reached }
  | .write t v => { f with host := { f.host with store := (f.host.store.write t v).2 } }
  | .replace file metadata =>
      { f with host := { f.host with store := f.host.store.replace file metadata } }
  | .drain =>
      let (changes, store) := f.host.store.drain
      { f with host := { f.host with store, inFlight := f.host.inFlight ++ changes } }
  | .notify =>
      match f.host.inFlight with
      | [] => f
      | change :: later =>
          let sync := (f.host.sync.onChange change).2
          { host := { f.host with sync, inFlight := later }
            reached := f.reached ++ sync.boundIn change.file }

/-- The feed after some calls. -/
def run (f : Feed) (calls : List Call) : Feed := calls.foldl perform f

/-- No field is live, and none was. -/
structure IsFresh (f : Feed) : Prop where
  host : f.host.IsFresh
  noReached : f.reached = []

/-- The store, with all changes that were not handed over yet in its queue. -/
def undelivered (f : Feed) : Store := { f.host.store with pending := f.host.underway }

/-! ## The invariant -/

variable {f f' : Feed}

/-- An entry that was attached unresolved is in step if its field was reached, and was told nothing
so far if it was not. -/
def Tracks (f : Feed) (uid : Nat) (e : Entry) : Prop :=
  (uid ∈ f.reached ∧ ∃ t, e.InStep f.undelivered t) ∨ (uid ∉ f.reached ∧ e.IsUntold)

/-- What every call keeps up: that of the host, and that the fields which were attached without a
target are tracked. -/
structure Invariant (f : Feed) : Prop where
  host : f.host.Invariant
  /-- Fields that were reached, and those that are live, have numbers that were given out. -/
  reachedIssued : ∀ uid ∈ f.reached, uid ≤ f.host.sync.registry.issued
  liveIssued : ∀ uid e, f.host.sync.registry.get? uid = some e →
    uid ≤ f.host.sync.registry.issued
  tracks : ∀ uid e cause, f.host.sync.registry.get? uid = some e →
    f.host.attached.get? uid = some (.unresolved cause) → f.Tracks uid e

theorem invariant_of_isFresh (hfresh : f.IsFresh) : f.Invariant := by
  have hnone : ∀ uid e, f.host.sync.registry.get? uid ≠ some e := by
    intro uid e he
    unfold Registry.get? at he
    rw [hfresh.host.noEntry, Keyed.get?_empty] at he
    cases he
  refine ⟨Host.invariant_of_isFresh hfresh.host, ?_, ?_, ?_⟩
  · intro uid hreached
    rw [hfresh.noReached] at hreached
    exact absurd hreached (by simp)
  · intro uid e he
    exact absurd he (hnone uid e)
  · intro uid e cause he
    exact absurd he (hnone uid e)

/-- An entry is still tracked after a call that does not reach its field and keeps entries in
step. -/
theorem Tracks.carry {uid : Nat} {e : Entry} (h : f.Tracks uid e)
    (hreached : uid ∈ f'.reached ↔ uid ∈ f.reached)
    (hstore : f.undelivered.Carries f'.undelivered) : f'.Tracks uid e := by
  unfold Tracks
  rw [hreached]
  rcases h with ⟨hmem, t, hstep⟩ | huntold
  · exact .inl ⟨hmem, t, hstore t e hstep⟩
  · exact .inr huntold

/-- An entry may be taken from. -/
theorem Tracks.emptied {uid : Nat} {e : Entry} (h : f.Tracks uid e) :
    f.Tracks uid { e with mailbox := {} } := by
  rcases h with ⟨hmem, t, hstep⟩ | ⟨hmem, huntold⟩
  · exact .inl ⟨hmem, t, Entry.inStep_emptied hstep⟩
  · exact .inr ⟨hmem, huntold.known, huntold.awaits, .inl rfl⟩

theorem Invariant.settles (h : f.Invariant) : f.undelivered.Settles f.undelivered.pending :=
  h.host.settles

theorem undelivered_replace (f : Feed) (file : FileRef) (root : Value) :
    ({ f with
        host := { f.host with store := f.host.store.replace file root } } : Feed).undelivered =
      f.undelivered.replace file root := by
  unfold undelivered Host.underway Store.replace Store.insert
  rw [List.append_assoc]

/-! ## One call -/

/-- A call that only changes the store keeps the invariant if it keeps entries in step. -/
theorem invariant_store (h : f.Invariant) {store : Store}
    (hhost : Host.Step f.host { f.host with store })
    (hcarries : f.undelivered.Carries
      ({ f with host := { f.host with store } } : Feed).undelivered) :
    Invariant { f with host := { f.host with store } } := by
  refine ⟨Host.invariant_step h.host hhost, h.reachedIssued, h.liveIssued, ?_⟩
  intro uid e cause he hlate
  exact (h.tracks uid e cause he hlate).carry Iff.rfl hcarries

theorem invariant_attach (h : f.Invariant) (d : Declaration) (context : FileRef)
    (control : Control) : (f.perform (.attach d context control)).Invariant := by
  have hentry := Synchronizer.get?_attach f.host.sync d context control f.host.store
  refine ⟨Host.invariant_step h.host (.attach f.host d context control), ?_, ?_, ?_⟩
  · intro uid hreached
    exact Nat.le_succ_of_le (h.reachedIssued uid hreached)
  · intro uid e he
    have hget := (hentry uid).symm.trans he
    split at hget
    · next hnew => exact Nat.le_of_eq hnew.symm
    · exact Nat.le_succ_of_le (h.liveIssued uid e hget)
  · intro uid e cause he hlate
    have hget := (hentry uid).symm.trans he
    have hattached := (Keyed.get?_put f.host.attached (f.host.sync.registry.issued + 1) uid
      (.ofDeclaration d context f.host.sync.index f.host.sync.policy)).symm.trans hlate
    by_cases hnew : f.host.sync.registry.issued + 1 = uid
    · -- A number that was not given out yet was not reached either.
      rw [if_pos hnew] at hget hattached
      obtain rfl := Option.some.inj hget
      refine .inr ⟨?_, Entry.isUntold_start (Option.some.inj hattached)⟩
      intro hreached
      have hissued := h.reachedIssued uid hreached
      omega
    · rw [if_neg hnew] at hget hattached
      exact (h.tracks uid e cause hget hattached).carry Iff.rfl (Entry.carries_refl _)

theorem invariant_detach (h : f.Invariant) (uid : Nat) : (f.perform (.detach uid)).Invariant := by
  have hentry : ∀ other e, (f.host.sync.detach uid).registry.get? other = some e →
      f.host.sync.registry.get? other = some e := by
    intro other e he
    rw [Synchronizer.get?_detach] at he
    split at he
    · exact absurd he (by simp)
    · exact he
  refine ⟨Host.invariant_step h.host (.detach f.host uid), h.reachedIssued, ?_, ?_⟩
  · intro other e he
    exact h.liveIssued other e (hentry other e he)
  · intro other e cause he hlate
    exact h.tracks other e cause (hentry other e he) hlate

theorem invariant_setIndex (h : f.Invariant) (index : FileIndex) :
    (f.perform (.setIndex index)).Invariant :=
  ⟨Host.invariant_step h.host (.setIndex f.host index), h.reachedIssued, h.liveIssued, h.tracks⟩

/-- Another entry under a number that is live. -/
theorem invariant_set (h : f.Invariant) (hhost : f'.host.Invariant) {uid : Nat} {e : Entry}
    (hlive : ∃ old, f.host.sync.registry.get? uid = some old)
    (hregistry : f'.host.sync.registry = f.host.sync.registry.set uid e)
    (hattached : f'.host.attached = f.host.attached)
    (hreached : ∀ other, uid ≠ other → (other ∈ f'.reached ↔ other ∈ f.reached))
    (hstore : f.undelivered.Carries f'.undelivered)
    (hown : ∀ cause, f.host.attached.get? uid = some (.unresolved cause) → f'.Tracks uid e) :
    f'.Invariant := by
  obtain ⟨old, hold⟩ := hlive
  have hentry : ∀ other, f'.host.sync.registry.get? other =
      if uid = other then some e else f.host.sync.registry.get? other := by
    intro other
    rw [hregistry, Registry.get?_set]
  have hissued : f'.host.sync.registry.issued = f.host.sync.registry.issued := by
    rw [hregistry]
    rfl
  have huid := h.liveIssued uid old hold
  refine ⟨hhost, ?_, ?_, ?_⟩
  · intro other hmem
    rw [hissued]
    by_cases heq : uid = other
    · exact heq ▸ huid
    · exact h.reachedIssued other ((hreached other heq).1 hmem)
  · intro other e' he'
    rw [hissued]
    by_cases heq : uid = other
    · exact heq ▸ huid
    · rw [hentry, if_neg heq] at he'
      exact h.liveIssued other e' he'
  · intro other e' cause he' hlate
    rw [hattached] at hlate
    rw [hentry] at he'
    by_cases heq : uid = other
    · rw [if_pos heq] at he'
      obtain rfl := Option.some.inj he'
      subst heq
      exact hown cause hlate
    · rw [if_neg heq] at he'
      exact (h.tracks other e' cause he' hlate).carry (hreached other heq) hstore

theorem invariant_take (h : f.Invariant) (uid : Nat) : (f.perform (.take uid)).Invariant := by
  have hhost := Host.invariant_step h.host (.take f.host uid)
  cases he : f.host.sync.registry.get? uid with
  | none =>
    have hnothing : f.perform (.take uid) = f := by
      simp only [perform, Synchronizer.takePending, he]
    rw [hnothing]
    exact h
  | some e =>
    have htaken := Synchronizer.takePending_of_get? he
    apply invariant_set (e := { e with mailbox := {} }) h hhost ⟨e, he⟩
    · simp only [perform, htaken]
    · rfl
    · intro other _
      exact Iff.rfl
    · exact Entry.carries_refl _
    · intro cause hlate
      exact (h.tracks uid e cause he hlate).emptied

/-- An edit that is written reaches the field. -/
theorem invariant_edit (h : f.Invariant) (uid : Nat) (v : Value) :
    (f.perform (.edit uid v)).Invariant := by
  have hhost := Host.invariant_step h.host (.edit f.host uid v)
  rcases f.host.sync.onEdit_cases uid v f.host.store with
    ⟨hedit, -⟩ | ⟨e, t, he, ht, ⟨root, hroot, hedit⟩ | ⟨error, hedit⟩⟩
  · have hnothing : f.perform (.edit uid v) = f := by
      simp only [perform, hedit]
    rw [hnothing]
    exact h
  · have hcall : f.perform (.edit uid v) =
        { host := { f.host with
            sync := { f.host.sync with registry := f.host.sync.registry.set uid (e.wrote v) }
            store := f.host.store.replace t.file root }
          reached := f.reached ++ [uid] } := by
      simp only [perform, hedit]
    have hstore : (f.perform (.edit uid v)).undelivered = f.undelivered.replace t.file root := by
      rw [hcall]
      exact undelivered_replace f t.file root
    apply invariant_set h hhost ⟨e, he⟩
    · rw [hcall]
    · rw [hcall]
    · intro other hne
      rw [hcall, List.mem_append, List.mem_singleton]
      simp only [hne.symm, or_false]
    · rw [hstore]
      exact Entry.carries_replace _ t.file root
    · intro cause hlate
      -- Whatever the entry awaits is echoed before what it writes now.
      have hechoed : (e.told f.undelivered.pending).unechoed = [] := by
        rcases h.tracks uid e cause he hlate with ⟨-, t', hstep⟩ | ⟨-, huntold⟩
        · exact hstep.echoed
        · exact (Entry.agrees_told ht huntold.awaits _).1
      refine .inl ⟨?_, t, ?_⟩
      · rw [hcall]
        simp
      · rw [hstore]
        exact Entry.inStep_wrote_of_echoed ht hechoed hroot
  · have hnothing : f.perform (.edit uid v) = f := by
      simp only [perform, hedit]
    rw [hnothing]
    exact h

theorem invariant_write (h : f.Invariant) (t : Target) (v : Value) :
    (f.perform (.write t v)).Invariant := by
  apply invariant_store h (.write f.host t v)
  rcases f.host.store.write_cases t v with ⟨root, -, hwrite⟩ | ⟨error, hwrite⟩
  · rw [hwrite, undelivered_replace]
    exact Entry.carries_replace _ t.file root
  · rw [hwrite]
    exact Entry.carries_refl _

theorem invariant_replace (h : f.Invariant) (file : FileRef) (metadata : Value) :
    (f.perform (.replace file metadata)).Invariant := by
  apply invariant_store h (.replace f.host file metadata)
  rw [undelivered_replace]
  exact Entry.carries_replace _ file metadata

/-- Draining takes no change off its way. -/
theorem undelivered_drain (f : Feed) : (f.perform .drain).undelivered = f.undelivered := by
  simp only [perform, undelivered, Host.underway, Store.drain, List.append_nil]

theorem invariant_drain (h : f.Invariant) : (f.perform .drain).Invariant := by
  have hhost := Host.invariant_step h.host
    (.drain f.host f.host.store.drain.1 (Host.isCoalesced_refl _))
  refine ⟨hhost, h.reachedIssued, h.liveIssued, ?_⟩
  intro uid e cause he hlate
  refine (h.tracks uid e cause he hlate).carry Iff.rfl ?_
  rw [undelivered_drain]
  exact Entry.carries_refl _

/-- An entry that is told the oldest change on its way. The retry may have bound it just now. -/
theorem tracks_notice {uid : Nat} {e : Entry} {change : Change} {later : List Change}
    (hsettles : f.undelivered.Settles f.undelivered.pending)
    (hnext : f.undelivered.pending = change :: later)
    (hcalled : f'.undelivered = { f.undelivered with pending := later }) (h : f.Tracks uid e)
    {index : FileIndex} {policy : AmbiguityPolicy}
    (hreached : uid ∈ f'.reached ↔ uid ∈ f.reached ∨
      ∃ t, (e.retry index policy).binding = .resolved t ∧ t.file = change.file) :
    f'.Tracks uid ((e.retry index policy).notice change).2 := by
  have hqueue : f.undelivered = { f.undelivered with pending := change :: later } := by
    rw [← hnext]
  unfold Tracks
  rw [hreached, hcalled]
  rcases h with ⟨hmem, t, hstep⟩ | ⟨hmem, huntold⟩
  · refine .inl ⟨.inl hmem, t, ?_⟩
    rw [Entry.retry_of_resolved hstep.bound]
    rw [hqueue] at hstep
    exact Entry.inStep_noticed hstep
  · have hretry := Entry.isUntold_retry huntold index policy
    by_cases hnow : ∃ t, (e.retry index policy).binding = .resolved t ∧ t.file = change.file
    · obtain ⟨t, ht, hfile⟩ := hnow
      refine .inl ⟨.inr ⟨t, ht, hfile⟩, t, ?_⟩
      -- This change, or a newer one, brings what the store holds.
      have hstep : (e.retry index policy).InStep f.undelivered t := by
        apply Entry.inStep_of_unechoed hsettles ht hretry.posted hretry.awaits
        intro hnone
        rw [hnext] at hnone
        exact absurd hfile.symm (newest?_eq_none_iff.1 hnone change List.mem_cons_self)
      rw [hqueue] at hstep
      exact Entry.inStep_noticed hstep
    · refine .inr ⟨?_, ?_⟩
      · rintro (hold | hnew)
        · exact hmem hold
        · exact hnow hnew
      · rw [Entry.notice_of_forall_ne]
        · exact hretry
        · intro t ht hfile
          exact hnow ⟨t, ht, hfile.symm⟩

theorem invariant_notify (h : f.Invariant) : (f.perform .notify).Invariant := by
  cases hnext : f.host.inFlight with
  | nil =>
    have hnothing : f.perform .notify = f := by
      simp only [perform, hnext]
    rw [hnothing]
    exact h
  | cons change later =>
    have hcall : f.perform .notify =
        { host := { f.host with sync := (f.host.sync.onChange change).2, inFlight := later }
          reached := f.reached ++ (f.host.sync.onChange change).2.boundIn change.file } := by
      simp only [perform, hnext]
    have hhost := Host.invariant_step h.host
      (.notify f.host [] change later hnext (fun c hc => absurd hc (by simp)))
    have hentry := Synchronizer.get?_onChange f.host.sync change
    rw [hcall]
    refine ⟨hhost, ?_, ?_, ?_⟩
    · intro uid hmem
      rcases List.mem_append.1 hmem with hold | hnew
      · exact h.reachedIssued uid hold
      · obtain ⟨e, t, he, -, -⟩ := Synchronizer.mem_boundIn_iff.1 hnew
        rw [hentry] at he
        obtain ⟨e₀, he₀, -⟩ := Option.map_eq_some_iff.1 he
        exact h.liveIssued uid e₀ he₀
    · intro uid e he
      have hget := (hentry uid).symm.trans he
      obtain ⟨e₀, he₀, -⟩ := Option.map_eq_some_iff.1 hget
      exact h.liveIssued uid e₀ he₀
    · intro uid e cause he hlate
      have hget := (hentry uid).symm.trans he
      obtain ⟨e₀, he₀, rfl⟩ := Option.map_eq_some_iff.1 hget
      have hpending : f.undelivered.pending = change :: (later ++ f.host.store.pending) := by
        simp only [undelivered, Host.underway, hnext, List.cons_append]
      refine tracks_notice h.settles hpending rfl (h.tracks uid e₀ cause he₀ hlate) ?_
      rw [List.mem_append, Synchronizer.mem_boundIn_iff, hentry, he₀, Option.map_some]
      have hsame := Entry.sameField_notice
        (e₀.retry (f.host.sync.index.insert change.file) f.host.sync.policy) change
      apply or_congr_right
      constructor
      · rintro ⟨e', t, he', ht, hfile⟩
        obtain rfl := Option.some.inj he'
        exact ⟨t, hsame.binding.symm.trans ht, hfile⟩
      · rintro ⟨t, ht, hfile⟩
        exact ⟨_, t, rfl, hsame.binding.trans ht, hfile⟩

/-- What one call keeps up. -/
theorem invariant_perform (h : f.Invariant) (call : Call) : (f.perform call).Invariant := by
  cases call with
  | attach d context control => exact invariant_attach h d context control
  | detach uid => exact invariant_detach h uid
  | setIndex index => exact invariant_setIndex h index
  | take uid => exact invariant_take h uid
  | edit uid v => exact invariant_edit h uid v
  | write t v => exact invariant_write h t v
  | replace file metadata => exact invariant_replace h file metadata
  | drain => exact invariant_drain h
  | notify => exact invariant_notify h

theorem invariant_run (h : f.Invariant) (calls : List Call) : (f.run calls).Invariant := by
  induction calls generalizing f with
  | nil => exact h
  | cons call calls ih => exact ih (invariant_perform h call)

/-! ## Agreement at rest -/

/-- When no change is on its way, an entry that was attached unresolved and is bound now agrees with
the store exactly if a change or a write reached its field, or if the store has the default. -/
theorem agrees_iff_of_run (hfresh : f.IsFresh) (calls : List Call)
    (hquiet : (f.run calls).host.IsQuiet) {uid : Nat} {e : Entry} {t : Target} {cause : Error}
    (he : (f.run calls).host.sync.registry.get? uid = some e)
    (hlate : (f.run calls).host.attached.get? uid = some (.unresolved cause))
    (ht : e.binding = .resolved t) :
    e.rule.Agrees e.lastKnown ((f.run calls).host.store.valueOr t e.default) ↔
      uid ∈ (f.run calls).reached ∨
        e.rule.Agrees e.default ((f.run calls).host.store.valueOr t e.default) := by
  have hinv := invariant_run (invariant_of_isFresh hfresh) calls
  have hnothing : (f.run calls).undelivered.pending = [] := by
    simp only [undelivered, Host.underway, hquiet.noInFlight, hquiet.noPending, List.append_nil]
  rcases hinv.tracks uid e cause he hlate with ⟨hreached, t', hstep⟩ | ⟨hreached, huntold⟩
  · obtain rfl := Binding.resolved.inj (ht.symm.trans hstep.bound)
    have hagrees := hstep.agrees
    rw [hnothing, Entry.told_nil] at hagrees
    exact ⟨fun _ => .inl hreached, fun _ => hagrees⟩
  · rw [huntold.known]
    simp only [hreached, false_or]

/-! ## A field that is bound by a change of another document -/

/-- The title of a document that is not in the index at first. -/
def titleDeclaration : Declaration := ⟨.text, [], true, some "later#title", none⟩

/-- Metadata that has a title only. -/
def titleOnly (title : String) : Value := .mapping [(.string "title", .string title)]

/-- A store with two documents, the first of which is in the index. -/
def titleFeed : Feed :=
  { host :=
      { sync := { index := ({} : FileIndex).insert ⟨"a.md"⟩ }
        store := { documents := ⟨[(⟨"a.md"⟩, .empty), (⟨"later.md"⟩, titleOnly "Hi")]⟩ } } }

theorem isFresh_titleFeed : titleFeed.IsFresh := ⟨⟨rfl, rfl, rfl, rfl⟩, rfl⟩

/-- The other document enters the index, and a change of the first one is handed over. -/
def titleCalls : List Call :=
  [.attach titleDeclaration ⟨"a.md"⟩ Host.statusControl,
    .setIndex ((({} : FileIndex).insert ⟨"a.md"⟩).insert ⟨"later.md"⟩),
    .replace ⟨"a.md"⟩ (Host.statusOnly "open"), .drain, .notify]

/-- What the field is bound to once the document is known. -/
def titleTarget : Target := ⟨⟨"later.md"⟩, ⟨["title"]⟩⟩

/-- The entry of the field once it is bound. -/
def titleEntry (lastKnown : String) : Entry :=
  { declaration := titleDeclaration, context := ⟨"a.md"⟩, binding := .resolved titleTarget,
    rule := .text, default := .string "", lastKnown := .string lastKnown, unechoed := [],
    mailbox := ⟨some (.string lastKnown)⟩ }

/-- Why the field was not bound at first. -/
def titleCause : Error := .unresolved "later#title" .noDocument

/-- Another title reaches the field. -/
theorem agrees_iff_of_run_title :
    ∃ calls, (titleFeed.run calls).host.IsQuiet ∧
      (titleFeed.run calls).host.sync.registry.get? 1 = some (titleEntry "Ho") ∧
      (titleFeed.run calls).host.attached.get? 1 = some (.unresolved titleCause) ∧
      (titleEntry "Ho").rule.Agrees (titleEntry "Ho").lastKnown
        ((titleFeed.run calls).host.store.valueOr titleTarget (titleEntry "Ho").default) := by
  refine ⟨titleCalls ++ [.replace ⟨"later.md"⟩ (titleOnly "Ho"), .drain, .notify], ?_⟩
  have hquiet : (titleFeed.run (titleCalls ++
      [.replace ⟨"later.md"⟩ (titleOnly "Ho"), .drain, .notify])).host.IsQuiet :=
    ⟨by decide +kernel, by decide +kernel⟩
  refine ⟨hquiet, by decide +kernel, by decide +kernel, ?_⟩
  have hiff := @agrees_iff_of_run titleFeed isFresh_titleFeed _ hquiet 1 (titleEntry "Ho")
    titleTarget titleCause (by decide +kernel) (by decide +kernel) rfl
  exact hiff.2 (.inl (by decide +kernel))

/-- The change of the first document binds the field to the title of the other one, which nobody
tells the field. -/
theorem exists_run_not_agrees :
    ¬ ∀ (f : Feed) (calls : List Call), f.IsFresh → (f.run calls).host.IsQuiet →
      ∀ uid e t cause, (f.run calls).host.sync.registry.get? uid = some e →
        (f.run calls).host.attached.get? uid = some (.unresolved cause) →
          e.binding = .resolved t →
            e.rule.Agrees e.lastKnown ((f.run calls).host.store.valueOr t e.default) := by
  intro hall
  have hquiet : (titleFeed.run titleCalls).host.IsQuiet := ⟨by decide +kernel, by decide +kernel⟩
  have hagrees := hall titleFeed titleCalls isFresh_titleFeed hquiet 1 (titleEntry "") titleTarget
    titleCause (by decide +kernel) (by decide +kernel) rfl
  exact absurd hagrees (by decide +kernel)

end Feed

end BoundFields
