import BoundFields.Sync.Synchronizer
import BoundFields.Proofs.Keyed
import BoundFields.Proofs.Sync.Echo

/-!
# What the synchronizer does to its entries

Every operation of the synchronizer, told by what is found under a number afterwards. An edit is the
one operation that can change the store as well; `Synchronizer.onEdit_cases` lists all it can do.
-/

set_option autoImplicit false

namespace BoundFields

namespace Registry

@[simp] theorem get?_set (r : Registry) (uid other : Nat) (e : Entry) :
    (r.set uid e).get? other = if uid = other then some e else r.get? other :=
  Keyed.get?_put r.entries uid other e

@[simp] theorem get?_unregister (r : Registry) (uid other : Nat) :
    (r.unregister uid).get? other = if uid = other then none else r.get? other :=
  Keyed.get?_erase r.entries uid other

theorem mem_uids_iff {r : Registry} {uid : Nat} : uid ∈ r.uids ↔ ∃ e, r.get? uid = some e :=
  Keyed.mem_keys_iff

theorem get?_eq_none_iff {r : Registry} {uid : Nat} : r.get? uid = none ↔ uid ∉ r.uids :=
  Keyed.get?_eq_none_iff

theorem get?_register (r : Registry) (e : Entry) (other : Nat) :
    (r.register e).2.get? other = if r.issued + 1 = other then some e else r.get? other :=
  Keyed.get?_put r.entries (r.issued + 1) other e

/-! ## All entries at once -/

/-- Every entry has a property. -/
def All (r : Registry) (P : Entry → Prop) : Prop := ∀ p ∈ r.entries.entries, P p.2

instance (r : Registry) (P : Entry → Prop) [DecidablePred P] : Decidable (r.All P) :=
  inferInstanceAs (Decidable (∀ p ∈ r.entries.entries, P p.2))

/-- The registry with `f` done to every entry. -/
def mapEntries (r : Registry) (f : Entry → Entry) : Registry :=
  { r with entries := ⟨r.entries.entries.map fun (uid, e) => (uid, f e)⟩ }

variable {r : Registry}

theorem mapEntries_mapEntries (r : Registry) (f g : Entry → Entry) :
    (r.mapEntries f).mapEntries g = r.mapEntries fun e => g (f e) := by
  unfold mapEntries
  simp only [List.map_map]
  rfl

theorem mapEntries_congr {f g : Entry → Entry} (h : r.All fun e => f e = g e) :
    r.mapEntries f = r.mapEntries g := by
  have hentries : (r.entries.entries.map fun (uid, e) => (uid, f e)) =
      r.entries.entries.map fun (uid, e) => (uid, g e) := by
    apply List.map_congr_left
    intro p hmem
    exact congrArg (Prod.mk p.1) (h p hmem)
  unfold mapEntries
  rw [hentries]

theorem mapEntries_of_all {f : Entry → Entry} (h : r.All fun e => f e = e) :
    r.mapEntries f = r := by
  rw [mapEntries_congr h]
  exact congrArg (fun entries => { r with entries := ⟨entries⟩ }) (List.map_id _)

theorem all_mapEntries {f : Entry → Entry} {P : Entry → Prop} :
    (r.mapEntries f).All P ↔ r.All fun e => P (f e) := by
  unfold All mapEntries
  rw [List.forall_mem_map]

theorem All.set {P : Entry → Prop} (h : r.All P) {uid : Nat} {e : Entry} (he : P e) :
    (r.set uid e).All P := by
  intro p hp
  rcases Keyed.mem_of_mem_putEntry hp with rfl | hp
  · exact he
  · exact h p hp

theorem All.register {P : Entry → Prop} (h : r.All P) {e : Entry} (he : P e) :
    (r.register e).2.All P :=
  All.set h he

theorem All.unregister {P : Entry → Prop} (h : r.All P) (uid : Nat) : (r.unregister uid).All P :=
  fun p hp => h p ((Keyed.eraseEntry_sublist uid r.entries.entries).subset hp)

theorem All.get? {P : Entry → Prop} (h : r.All P) {uid : Nat} {e : Entry}
    (he : r.get? uid = some e) : P e :=
  h (uid, e) (Keyed.mem_of_get? he)

theorem find_mapEntries (r : Registry) (f : Entry → Entry) (p : Entry → Bool) :
    (r.mapEntries f).find p = r.find fun e => p (f e) := by
  unfold find mapEntries
  rw [List.filter_map, List.map_map]
  rfl

theorem find_congr {p q : Entry → Bool} (h : r.All fun e => p e = q e) : r.find p = r.find q := by
  unfold find
  have hfilter : r.entries.entries.filter (fun (_, e) => p e) =
      r.entries.entries.filter fun (_, e) => q e := by
    apply List.filter_congr
    intro p hmem
    exact h p hmem
  rw [hfilter]

end Registry

namespace Entry

theorem target?_eq_some_iff {e : Entry} {t : Target} :
    e.target? = some t ↔ e.binding = .resolved t := by
  unfold target?
  cases e.binding <;> simp [Binding.target?]

/-- A change that is not of the document that an entry is bound in leaves the entry as it is. -/
theorem notice_of_forall_ne {e : Entry} {change : Change}
    (h : ∀ t, e.binding = .resolved t → change.file ≠ t.file) : e.notice change = (false, e) := by
  cases htarget : e.target? with
  | none => simp only [notice, htarget]
  | some t =>
    have hbound := target?_eq_some_iff.1 htarget
    exact notice_of_file_ne hbound (h t hbound)

/-- A retry changes nothing but the binding. -/
theorem exists_retry_eq (e : Entry) (index : FileIndex) (policy : AmbiguityPolicy) :
    ∃ binding, e.retry index policy = { e with binding } := by
  unfold retry
  split
  · exact ⟨_, rfl⟩
  · exact ⟨e.binding, rfl⟩

/-- An entry that could not be bound is bound as it would be by now. -/
theorem retry_of_unresolved {e : Entry} {cause : Error} (h : e.binding = .unresolved cause)
    (index : FileIndex) (policy : AmbiguityPolicy) :
    e.retry index policy =
      { e with binding := .ofDeclaration e.declaration e.context index policy } := by
  unfold retry
  rw [h]

/-- Only an entry that could not be bound is tried again. -/
theorem retry_of_forall_ne {e : Entry} (h : ∀ cause, e.binding ≠ .unresolved cause)
    (index : FileIndex) (policy : AmbiguityPolicy) : e.retry index policy = e := by
  unfold retry
  split
  · next cause hcause => exact absurd hcause (h cause)
  · rfl

/-- An entry that is bound stays bound as it is. -/
theorem retry_of_resolved {e : Entry} {t : Target} (h : e.binding = .resolved t)
    (index : FileIndex) (policy : AmbiguityPolicy) : e.retry index policy = e := by
  apply retry_of_forall_ne
  intro cause hcause
  rw [h] at hcause
  cases hcause

/-- An entry of the same field. A field that could not be bound may be bound by now. -/
structure Remains (e e' : Entry) : Prop where
  declaration : e'.declaration = e.declaration
  context : e'.context = e.context
  rule : e'.rule = e.rule
  default : e'.default = e.default
  bound : (∀ cause, e.binding ≠ .unresolved cause) → e'.binding = e.binding

theorem remains_refl (e : Entry) : e.Remains e := ⟨rfl, rfl, rfl, rfl, fun _ => rfl⟩

theorem Remains.trans {e e' e'' : Entry} (h : e.Remains e') (h' : e'.Remains e'') :
    e.Remains e'' := by
  refine ⟨h'.declaration.trans h.declaration, h'.context.trans h.context, h'.rule.trans h.rule,
    h'.default.trans h.default, ?_⟩
  intro hbound
  have hsame := h.bound hbound
  rw [← hsame] at hbound ⊢
  exact h'.bound hbound

theorem Remains.binding {e e' : Entry} (h : e.Remains e') {t : Target}
    (ht : e.binding = .resolved t) : e'.binding = .resolved t := by
  rw [← ht]
  apply h.bound
  intro cause hcause
  rw [ht] at hcause
  cases hcause

theorem remains_noticed (e : Entry) (index : FileIndex) (policy : AmbiguityPolicy)
    (change : Change) : e.Remains ((e.retry index policy).notice change).2 := by
  obtain ⟨lastKnown, unechoed, mailbox, hnotice⟩ := (e.retry index policy).exists_notice_eq change
  obtain ⟨binding, hretry⟩ := e.exists_retry_eq index policy
  refine ⟨?_, ?_, ?_, ?_, ?_⟩
  · rw [hnotice, hretry]
  · rw [hnotice, hretry]
  · rw [hnotice, hretry]
  · rw [hnotice, hretry]
  · intro hbound
    rw [hnotice, retry_of_forall_ne hbound]

/-- A change that an entry is told leaves it bound as the retry has bound it. -/
theorem binding_noticed {e : Entry} {cause : Error} (h : e.binding = .unresolved cause)
    (index : FileIndex) (policy : AmbiguityPolicy) (change : Change) :
    ((e.retry index policy).notice change).2.binding =
      Binding.ofDeclaration e.declaration e.context index policy := by
  obtain ⟨lastKnown, unechoed, mailbox, hnotice⟩ := (e.retry index policy).exists_notice_eq change
  rw [hnotice, retry_of_unresolved h]

end Entry

namespace Synchronizer

/-! ## Entries -/

/-- What a change makes of an entry, and whether the entry got a new value. -/
def tell (s : Synchronizer) (change : Change) (e : Entry) : Bool × Entry :=
  (e.retry (s.index.insert change.file) s.policy).notice change

/-- A change is told to every entry, and names those that got a new value. -/
theorem onChange_eq (s : Synchronizer) (change : Change) :
    s.onChange change = (s.registry.find fun e => (s.tell change e).1,
      { s with
        index := s.index.insert change.file
        registry := s.registry.mapEntries fun e => (s.tell change e).2 }) := by
  unfold onChange noticed Registry.find Registry.mapEntries tell
  simp only [List.filter_map, List.map_map]
  rfl

theorem get?_onChange (s : Synchronizer) (change : Change) (uid : Nat) :
    (s.onChange change).2.registry.get? uid = (s.registry.get? uid).map fun e =>
      ((e.retry (s.index.insert change.file) s.policy).notice change).2 := by
  have hfind := Keyed.find?_map
    (fun e : Entry => ((e.retry (s.index.insert change.file) s.policy).notice change).2) uid
    s.registry.entries.entries
  unfold onChange noticed Registry.get? Keyed.get?
  dsimp only
  rw [List.map_map]
  exact hfind

/-- A bound entry is told the change. -/
theorem get?_onChange_of_resolved {s : Synchronizer} {uid : Nat} {e : Entry} {t : Target}
    (he : s.registry.get? uid = some e) (ht : e.binding = .resolved t) (change : Change) :
    (s.onChange change).2.registry.get? uid = some (e.notice change).2 := by
  rw [get?_onChange, he, Option.map_some, Entry.retry_of_resolved ht]

/-- A change leaves every entry under its number. -/
theorem keys_onChange (s : Synchronizer) (change : Change) :
    (s.onChange change).2.registry.entries.keys = s.registry.entries.keys := by
  unfold onChange noticed Keyed.keys
  simp only [List.map_map]
  rfl

/-- A change names the fields whose entries it is news for, once their bindings were tried again. -/
theorem mem_onChange_iff {s : Synchronizer} (hunique : s.registry.entries.IsUnique)
    (change : Change) (uid : Nat) :
    uid ∈ (s.onChange change).1 ↔ ∃ e, s.registry.get? uid = some e ∧
      ((e.retry (s.index.insert change.file) s.policy).notice change).1 = true := by
  constructor
  · intro hmem
    obtain ⟨⟨uid', news, e'⟩, hafter, rfl⟩ := List.mem_map.1 hmem
    obtain ⟨hafter, hnews⟩ := List.mem_filter.1 hafter
    obtain ⟨⟨uid'', e⟩, hold, heq⟩ := List.mem_map.1 hafter
    obtain ⟨rfl, hpair⟩ := Prod.mk.inj heq
    -- There is no other entry under the number.
    refine ⟨e, Keyed.get?_of_mem hunique hold, ?_⟩
    rw [hpair]
    exact hnews
  · rintro ⟨e, he, hnews⟩
    have hafter : (uid, (e.retry (s.index.insert change.file) s.policy).notice change) ∈
        noticed (s.index.insert change.file) s.policy change s.registry.entries.entries :=
      List.mem_map.2 ⟨(uid, e), Keyed.mem_of_get? he, rfl⟩
    exact List.mem_map.2 ⟨_, List.mem_filter.2 ⟨hafter, hnews⟩, rfl⟩

theorem get?_attach (s : Synchronizer) (d : Declaration) (context : FileRef) (control : Control)
    (store : Store) (uid : Nat) :
    (s.attach d context control store).2.registry.get? uid =
      if s.registry.issued + 1 = uid then
        some (Entry.start d context control s.index s.policy store)
      else s.registry.get? uid :=
  Registry.get?_register s.registry _ uid

theorem get?_detach (s : Synchronizer) (uid other : Nat) :
    (s.detach uid).registry.get? other = if uid = other then none else s.registry.get? other :=
  Registry.get?_unregister s.registry uid other

/-- Nothing can be taken under a number that no field has. -/
theorem takePending_of_get?_eq_none {s : Synchronizer} {uid : Nat}
    (he : s.registry.get? uid = none) : s.takePending uid = (none, s) := by
  unfold takePending
  rw [he]

/-- Taking the waiting value empties the mailbox of that entry. -/
theorem takePending_of_get? {s : Synchronizer} {uid : Nat} {e : Entry}
    (he : s.registry.get? uid = some e) :
    s.takePending uid =
      (e.mailbox.slot, { s with registry := s.registry.set uid { e with mailbox := {} } }) := by
  unfold takePending
  rw [he]
  rfl

/-- Taking a waiting value touches no other entry. -/
theorem get?_takePending_of_ne {s : Synchronizer} {uid other : Nat} (h : uid ≠ other) :
    (s.takePending uid).2.registry.get? other = s.registry.get? other := by
  unfold takePending
  split
  · rfl
  · simp only [Registry.get?_set, if_neg h]

/-! ## Edits -/

/-- An edit does nothing, or it writes the value and makes the entry await it, or the write fails
and leaves everything as it was. -/
theorem onEdit_cases (s : Synchronizer) (uid : Nat) (v : Value) (store : Store) :
    s.onEdit uid v store = (.ok false, s, store) ∧
        (∀ e, s.registry.get? uid = some e → e.target? = none) ∨
      ∃ e t, s.registry.get? uid = some e ∧ e.binding = .resolved t ∧
        ((∃ root, root.read? t.path = some v ∧
            s.onEdit uid v store =
              (.ok true, { s with registry := s.registry.set uid (e.wrote v) },
                store.replace t.file root)) ∨
          ∃ error, s.onEdit uid v store = (.error error, s, store)) := by
  unfold onEdit
  cases he : s.registry.get? uid with
  | none => exact .inl ⟨rfl, fun e h => absurd h (by simp)⟩
  | some e =>
    cases ht : e.target? with
    | none =>
      refine .inl ⟨by simp [ht], fun e' h => ?_⟩
      obtain rfl := Option.some.inj h
      exact ht
    | some t =>
      refine .inr ⟨e, t, rfl, Entry.target?_eq_some_iff.1 ht, ?_⟩
      rcases store.write_cases t v with ⟨root, hroot, hwrite⟩ | ⟨error, hwrite⟩
      · exact .inl ⟨root, hroot, by simp [ht, hwrite]⟩
      · exact .inr ⟨error, by simp [ht, hwrite]⟩

/-! ## The fields -/

/-- One synchronizer has the same fields as another one, under the same numbers. -/
structure KeepsFields (s s' : Synchronizer) : Prop where
  uids : s'.registry.uids = s.registry.uids
  issued : s'.registry.issued = s.registry.issued
  entries : ∀ uid e, s.registry.get? uid = some e →
    ∃ e', s'.registry.get? uid = some e' ∧ e.Remains e'

variable {s : Synchronizer}

theorem keepsFields_refl (s : Synchronizer) : s.KeepsFields s :=
  ⟨rfl, rfl, fun _ e he => ⟨e, he, e.remains_refl⟩⟩

theorem KeepsFields.trans {s' s'' : Synchronizer} (h : s.KeepsFields s')
    (h' : s'.KeepsFields s'') : s.KeepsFields s'' := by
  refine ⟨h'.uids.trans h.uids, h'.issued.trans h.issued, ?_⟩
  intro uid e he
  obtain ⟨e', he', hremains⟩ := h.entries uid e he
  obtain ⟨e'', he'', hremains'⟩ := h'.entries uid e' he'
  exact ⟨e'', he'', hremains.trans hremains'⟩

theorem KeepsFields.isUnique {s' : Synchronizer} (h : s.KeepsFields s')
    (hunique : s.registry.entries.IsUnique) : s'.registry.entries.IsUnique := by
  have huids : s'.registry.entries.keys = s.registry.entries.keys := h.uids
  unfold Keyed.IsUnique at hunique ⊢
  rw [huids]
  exact hunique

/-- An entry may be exchanged for another one of its field. -/
theorem keepsFields_set {uid : Nat} {e e' : Entry} (he : s.registry.get? uid = some e)
    (hremains : e.Remains e') :
    s.KeepsFields { s with registry := s.registry.set uid e' } := by
  refine ⟨Keyed.keys_put_of_mem (Registry.mem_uids_iff.2 ⟨e, he⟩) e', rfl, ?_⟩
  intro other own hown
  rw [Registry.get?_set]
  by_cases hother : uid = other
  · subst hother
    obtain rfl := Option.some.inj (he.symm.trans hown)
    exact ⟨e', if_pos rfl, hremains⟩
  · exact ⟨own, (if_neg hother).trans hown, own.remains_refl⟩

theorem keepsFields_onChange (s : Synchronizer) (change : Change) :
    s.KeepsFields (s.onChange change).2 := by
  refine ⟨s.keys_onChange change, rfl, ?_⟩
  intro uid e he
  refine ⟨_, ?_, e.remains_noticed (s.index.insert change.file) s.policy change⟩
  rw [get?_onChange, he, Option.map_some]

theorem keepsFields_onEdit (s : Synchronizer) (uid : Nat) (v : Value) (store : Store) :
    s.KeepsFields (s.onEdit uid v store).2.1 := by
  rcases s.onEdit_cases uid v store with
    ⟨hedit, -⟩ | ⟨e, t, he, -, ⟨root, -, hedit⟩ | ⟨error, hedit⟩⟩
  · rw [hedit]
    exact s.keepsFields_refl
  · rw [hedit]
    exact keepsFields_set he ⟨rfl, rfl, rfl, rfl, fun _ => rfl⟩
  · rw [hedit]
    exact s.keepsFields_refl

theorem keepsFields_takePending (s : Synchronizer) (uid : Nat) :
    s.KeepsFields (s.takePending uid).2 := by
  cases he : s.registry.get? uid with
  | none =>
    rw [takePending_of_get?_eq_none he]
    exact s.keepsFields_refl
  | some e =>
    rw [takePending_of_get? he]
    exact keepsFields_set he ⟨rfl, rfl, rfl, rfl, fun _ => rfl⟩

end Synchronizer

end BoundFields
