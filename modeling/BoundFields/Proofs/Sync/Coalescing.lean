import Mathlib.Logic.Relation
import Mathlib.Tactic.Convert
import BoundFields.Proofs.Sync.Registry

/-!
# Hosts that coalesce changes

A host drains the store and hands over to the synchronizer, for every document, some of the changes
in their order, the last one always (`Host.Step`). An entry takes a change for the echo of the first
of its writes that has the same value, although the host may have left that echo out. So, when
nothing is on its way any more, an entry that awaits no write agrees with the store, and one that
still awaits a write does so only if its last write does (`agrees_iff_of_reaches`).
-/

set_option autoImplicit false

namespace BoundFields

/-! ## Hosts -/

/-- What a host may hand over of the changes that it drained: for every document some of its changes
in their order, with the last one. -/
def IsCoalesced (drained kept : List Change) : Prop :=
  ∀ file, (kept.filter (·.file = file)).Sublist (drained.filter (·.file = file)) ∧
    newest? kept file = newest? drained file

/-- A synchronizer and a store, with the changes that were drained and not handed over yet, and how
each entry was bound when it was attached. -/
structure Host where
  sync : Synchronizer
  store : Store
  inFlight : List Change := []
  attached : Keyed Nat Binding := {}
deriving DecidableEq, Repr

namespace Host

/-- One call of the host. -/
inductive Step : Host → Host → Prop where
  | attach (h : Host) (d : Declaration) (context : FileRef) (control : Control) :
      Step h { h with
        sync := (h.sync.attach d context control h.store).2
        attached := h.attached.put (h.sync.attach d context control h.store).1
          (.ofDeclaration d context h.sync.index h.sync.policy) }
  | detach (h : Host) (uid : Nat) : Step h { h with sync := h.sync.detach uid }
  | setIndex (h : Host) (index : FileIndex) : Step h { h with sync := h.sync.setIndex index }
  | take (h : Host) (uid : Nat) : Step h { h with sync := (h.sync.takePending uid).2 }
  | edit (h : Host) (uid : Nat) (v : Value) :
      Step h { h with
        sync := (h.sync.onEdit uid v h.store).2.1
        store := (h.sync.onEdit uid v h.store).2.2 }
  | write (h : Host) (t : Target) (v : Value) : Step h { h with store := (h.store.write t v).2 }
  | replace (h : Host) (file : FileRef) (metadata : Value) :
      Step h { h with store := h.store.replace file metadata }
  | drain (h : Host) (kept : List Change) (coalesced : IsCoalesced h.store.drain.1 kept) :
      Step h { h with store := h.store.drain.2, inFlight := h.inFlight ++ kept }
  /-- The changes of one document are handed over in their order. -/
  | notify (h : Host) (before : List Change) (change : Change) (after : List Change)
      (inFlight : h.inFlight = before ++ change :: after)
      (first : ∀ c ∈ before, c.file ≠ change.file) :
      Step h { h with sync := (h.sync.onChange change).2, inFlight := before ++ after }

/-- The state after any number of calls. -/
abbrev Reaches : Host → Host → Prop := Relation.ReflTransGen Step

/-- No entry is registered and no change is on its way. -/
structure IsFresh (h : Host) : Prop where
  noEntry : h.sync.registry.entries = {}
  noPending : h.store.pending = []
  noInFlight : h.inFlight = []
  noAttached : h.attached = {}

/-- No change is on its way. -/
structure IsQuiet (h : Host) : Prop where
  noPending : h.store.pending = []
  noInFlight : h.inFlight = []

/-- The changes on their way, the oldest first. -/
def underway (h : Host) : List Change := h.inFlight ++ h.store.pending

/-! ## The invariant -/

/-- What is known of an entry that was bound when it was attached. -/
structure Follows (h : Host) (t : Target) (e : Entry) : Prop where
  bound : e.binding = .resolved t
  /-- The last write that is awaited is the last value known. -/
  lastWrite : ∀ w, e.unechoed.getLast? = some w → e.lastKnown = w
  /-- Without a change on its way, an entry that awaits nothing agrees with the store. -/
  agrees : newest? h.underway t.file = none → e.unechoed = [] →
    e.rule.Agrees e.lastKnown (h.store.valueOr t e.default)

/-- What every call keeps up: the changes on their way lead to the store as it is, and the fields
that were bound from the start follow it. -/
structure Invariant (h : Host) : Prop where
  settles : h.store.Settles h.underway
  follows : ∀ uid e t, h.sync.registry.get? uid = some e →
    h.attached.get? uid = some (.resolved t) → h.Follows t e

theorem invariant_of_isFresh {h : Host} (hfresh : h.IsFresh) : h.Invariant := by
  refine ⟨?_, ?_⟩
  · unfold underway
    rw [hfresh.noInFlight, hfresh.noPending]
    exact Store.settles_nil h.store
  · intro uid e t he
    unfold Registry.get? at he
    rw [hfresh.noEntry, Keyed.get?_empty] at he
    cases he

/-- An entry goes on following if either a change of its document is on its way, or none was and the
store still has the same value. -/
theorem follows_of_same {h h' : Host} {t : Target} {e : Entry} (hf : h.Follows t e)
    (hsame : newest? h'.underway t.file = none → newest? h.underway t.file = none ∧
      h'.store.valueOr t e.default = h.store.valueOr t e.default) : h'.Follows t e := by
  refine ⟨hf.bound, hf.lastWrite, ?_⟩
  intro hnone hwrites
  obtain ⟨hnone', hvalue⟩ := hsame hnone
  rw [hvalue]
  exact hf.agrees hnone' hwrites

/-- A change goes on its way behind the others. -/
theorem underway_replace (h : Host) (file : FileRef) (root : Value) :
    ({ h with store := h.store.replace file root } : Host).underway =
      h.underway ++ [⟨file, root⟩] :=
  (List.append_assoc _ _ _).symm

theorem newest?_underway_replace (h : Host) (file : FileRef) (root : Value) (other : FileRef) :
    newest? ({ h with store := h.store.replace file root } : Host).underway other =
      if file = other then some ⟨file, root⟩ else newest? h.underway other := by
  rw [underway_replace, newest?_concat]

/-- Replacing a document keeps up what is known of every entry. -/
theorem invariant_replace {h : Host} (hinv : h.Invariant) (file : FileRef) (root : Value) :
    ({ h with store := h.store.replace file root } : Host).Invariant := by
  refine ⟨?_, ?_⟩
  · rw [underway_replace]
    exact Store.settles_replace hinv.settles file root
  · intro uid e t he hattached
    refine follows_of_same (hinv.follows uid e t he hattached) ?_
    intro hnone
    rw [newest?_underway_replace] at hnone
    by_cases hfile : file = t.file
    · rw [if_pos hfile] at hnone
      exact absurd hnone (by simp)
    · rw [if_neg hfile] at hnone
      exact ⟨hnone, by rw [Store.valueOr_replace, if_neg hfile]⟩

/-- An entry that is attached has read the store just now. -/
theorem invariant_attach {h : Host} (hinv : h.Invariant) (d : Declaration) (context : FileRef)
    (control : Control) :
    ({ h with
      sync := (h.sync.attach d context control h.store).2
      attached := h.attached.put (h.sync.attach d context control h.store).1
        (.ofDeclaration d context h.sync.index h.sync.policy) } : Host).Invariant := by
  refine ⟨hinv.settles, ?_⟩
  intro uid e t he hattached
  rw [Synchronizer.get?_attach] at he
  rw [Keyed.get?_put] at hattached
  by_cases hnew : h.sync.registry.issued + 1 = uid
  · rw [if_pos hnew] at he
    obtain rfl := Option.some.inj he
    have hbinding : Binding.ofDeclaration d context h.sync.index h.sync.policy = .resolved t := by
      have hput : (h.sync.attach d context control h.store).1 = uid := hnew
      rw [if_pos hput] at hattached
      exact Option.some.inj hattached
    refine ⟨hbinding, fun w hw => absurd hw (by simp [Entry.start]), ?_⟩
    intro _ _
    refine .inl ?_
    unfold Entry.start
    simp only [hbinding]
    rfl
  · rw [if_neg hnew] at he
    have hput : (h.sync.attach d context control h.store).1 ≠ uid := hnew
    rw [if_neg hput] at hattached
    exact follows_of_same (hinv.follows uid e t he hattached) fun hnone => ⟨hnone, rfl⟩

/-- What is known of entries is known of those that were only taken from. -/
theorem invariant_sync {h : Host} (hinv : h.Invariant) (sync : Synchronizer)
    (hsync : ∀ uid e, sync.registry.get? uid = some e → ∃ e₀, h.sync.registry.get? uid = some e₀ ∧
      ∃ mailbox, e = { e₀ with mailbox }) :
    ({ h with sync } : Host).Invariant := by
  refine ⟨hinv.settles, ?_⟩
  intro uid e t he hattached
  obtain ⟨e₀, he₀, mailbox, rfl⟩ := hsync uid e he
  have hf := hinv.follows uid e₀ t he₀ hattached
  exact ⟨hf.bound, hf.lastWrite, hf.agrees⟩

/-- A write makes the entry await the value behind all others. -/
theorem invariant_edit {h : Host} (hinv : h.Invariant) (uid : Nat) (v : Value) :
    ({ h with
      sync := (h.sync.onEdit uid v h.store).2.1
      store := (h.sync.onEdit uid v h.store).2.2 } : Host).Invariant := by
  rcases h.sync.onEdit_cases uid v h.store with
    ⟨hedit, -⟩ | ⟨e, t, he, ht, ⟨root, hroot, hedit⟩ | ⟨error, hedit⟩⟩
  · rw [hedit]
    exact hinv
  · rw [hedit]
    have hreplaced := invariant_replace hinv t.file root
    refine ⟨hreplaced.settles, ?_⟩
    intro other e' t' he' hattached
    rw [Registry.get?_set] at he'
    by_cases hother : uid = other
    · rw [if_pos hother] at he'
      obtain rfl := Option.some.inj he'
      rw [← hother] at hattached
      have hf := hinv.follows uid e t' he hattached
      obtain rfl : t = t' := Binding.resolved.inj (ht.symm.trans hf.bound)
      refine ⟨hf.bound, ?_, ?_⟩
      · intro w hw
        have hlast : (e.unechoed ++ [v]).getLast? = some w := hw
        rw [List.getLast?_concat] at hlast
        exact Option.some.inj hlast
      · intro hnone
        have hsome := newest?_underway_replace h t.file root t.file
        rw [if_pos rfl] at hsome
        exact absurd (hsome.symm.trans hnone) (by simp)
    · rw [if_neg hother] at he'
      have hf := hreplaced.follows other e' t' he' hattached
      exact ⟨hf.bound, hf.lastWrite, hf.agrees⟩
  · rw [hedit]
    exact hinv

/-- Draining loses no newest change. -/
theorem newest?_underway_drain {h : Host} {kept : List Change}
    (hkept : IsCoalesced h.store.drain.1 kept) (file : FileRef) :
    newest? ({ h with store := h.store.drain.2, inFlight := h.inFlight ++ kept } : Host).underway
      file = newest? h.underway file := by
  unfold underway
  rw [newest?_append, newest?_append, newest?_append, (hkept file).2]
  rfl

theorem invariant_drain {h : Host} (hinv : h.Invariant) {kept : List Change}
    (hkept : IsCoalesced h.store.drain.1 kept) :
    ({ h with store := h.store.drain.2, inFlight := h.inFlight ++ kept } : Host).Invariant := by
  refine ⟨?_, ?_⟩
  · intro file c hc
    rw [newest?_underway_drain hkept] at hc
    exact hinv.settles file c hc
  · intro uid e t he hattached
    refine follows_of_same (hinv.follows uid e t he hattached) ?_
    intro hnone
    rw [newest?_underway_drain hkept] at hnone
    exact ⟨hnone, rfl⟩

section Notify

variable {h : Host} {before after : List Change} {change : Change}

/-- A change that is handed over was the newest of its document only if none is left. -/
theorem newest?_underway_of_notify (hinFlight : h.inFlight = before ++ change :: after)
    (hfirst : ∀ c ∈ before, c.file ≠ change.file) (file : FileRef) :
    newest? h.underway file =
      (newest? (before ++ after ++ h.store.pending) file).or
        (if change.file = file then some change else none) := by
  unfold underway
  rw [hinFlight]
  simp only [newest?_append, newest?_cons]
  by_cases hfile : change.file = file
  · have hbefore : newest? before file = none := by
      rw [newest?_eq_none_iff, ← hfile]
      exact hfirst
    rw [hbefore, if_pos hfile]
    simp only [Option.or_none, Option.or_assoc]
  · rw [if_neg hfile]
    simp only [Option.or_none]

theorem invariant_notify (hinv : h.Invariant) (hinFlight : h.inFlight = before ++ change :: after)
    (hfirst : ∀ c ∈ before, c.file ≠ change.file) :
    ({ h with sync := (h.sync.onChange change).2, inFlight := before ++ after } :
      Host).Invariant := by
  have hnewest := newest?_underway_of_notify hinFlight hfirst
  refine ⟨?_, ?_⟩
  · intro file c hc
    refine hinv.settles file c ?_
    have hleft : newest? (before ++ after ++ h.store.pending) file = some c := hc
    rw [hnewest, hleft, Option.some_or]
  · intro uid e t he hattached
    rw [Synchronizer.get?_onChange] at he
    obtain ⟨e₀, he₀, rfl⟩ := Option.map_eq_some_iff.1 he
    have hf := hinv.follows uid e₀ t he₀ hattached
    rw [Entry.retry_of_resolved hf.bound]
    have hsame := e₀.sameField_notice change
    by_cases hfile : change.file = t.file
    · rw [Entry.notice_of_file_eq hf.bound hfile] at hsame ⊢
      refine ⟨hsame.binding.trans hf.bound, Entry.lastKnown_of_receive _ hf.lastWrite, ?_⟩
      intro hleft hnone
      have hagrees := Entry.agrees_of_receive _ hf.lastWrite hnone
      -- The change was the last one on its way, so that it carries what the store holds.
      have hlast : newest? h.underway t.file = some change := by
        have hleft' : newest? (before ++ after ++ h.store.pending) t.file = none := hleft
        rw [hnewest, hleft', if_pos hfile, Option.none_or]
      rw [Store.valueOr_of_settles hinv.settles hlast] at hagrees
      rw [hsame.rule, hsame.default, Store.valueOr_of_settles hinv.settles hlast]
      exact hagrees
    · rw [Entry.notice_of_file_ne hf.bound hfile]
      refine follows_of_same hf ?_
      intro hleft
      have hleft' : newest? (before ++ after ++ h.store.pending) t.file = none := hleft
      rw [hnewest, hleft', if_neg hfile]
      exact ⟨rfl, rfl⟩

end Notify

theorem invariant_step {h h' : Host} (hinv : h.Invariant) (hstep : Step h h') : h'.Invariant := by
  cases hstep with
  | attach d context control => exact invariant_attach hinv d context control
  | detach uid =>
    refine invariant_sync hinv _ ?_
    intro other e he
    rw [Synchronizer.get?_detach] at he
    split at he
    · exact absurd he (by simp)
    · exact ⟨e, he, e.mailbox, rfl⟩
  | setIndex index => exact invariant_sync hinv _ fun other e he => ⟨e, he, e.mailbox, rfl⟩
  | take uid =>
    refine invariant_sync hinv _ ?_
    intro other e he
    by_cases hother : uid = other
    · cases hget : h.sync.registry.get? uid with
      | none =>
        rw [Synchronizer.takePending_of_get?_eq_none hget] at he
        exact ⟨e, he, e.mailbox, rfl⟩
      | some e₀ =>
        rw [Synchronizer.takePending_of_get? hget, Registry.get?_set, if_pos hother] at he
        obtain rfl := Option.some.inj he
        exact ⟨e₀, hother ▸ hget, {}, rfl⟩
    · rw [Synchronizer.get?_takePending_of_ne hother] at he
      exact ⟨e, he, e.mailbox, rfl⟩
  | edit uid v => exact invariant_edit hinv uid v
  | write t v =>
    rcases h.store.write_cases t v with ⟨root, -, hwrite⟩ | ⟨error, hwrite⟩
    · rw [hwrite]
      exact invariant_replace hinv t.file root
    · rw [hwrite]
      exact hinv
  | replace file metadata => exact invariant_replace hinv file metadata
  | drain kept coalesced => exact invariant_drain hinv coalesced
  | notify before change after inFlight first => exact invariant_notify hinv inFlight first

theorem invariant_of_reaches {h h' : Host} (hinv : h.Invariant) (hreach : Reaches h h') :
    h'.Invariant := by
  induction hreach with
  | refl => exact hinv
  | tail _ hstep ih => exact invariant_step ih hstep

/-! ## Agreement at rest -/

/-- When no change is on its way, an entry that was bound when it was attached agrees with the store
exactly if it awaits no write or the last write that it awaits agrees with the store. -/
theorem agrees_iff_of_reaches {h h' : Host} (hfresh : h.IsFresh) (hreach : Reaches h h')
    (hquiet : h'.IsQuiet) {uid : Nat} {e : Entry} {t : Target}
    (he : h'.sync.registry.get? uid = some e) (ht : h'.attached.get? uid = some (.resolved t)) :
    e.rule.Agrees e.lastKnown (h'.store.valueOr t e.default) ↔
      ∀ w, e.unechoed.getLast? = some w → e.rule.Agrees w (h'.store.valueOr t e.default) := by
  have hf := (invariant_of_reaches (invariant_of_isFresh hfresh) hreach).follows uid e t he ht
  constructor
  · intro hagrees w hw
    rw [← hf.lastWrite w hw]
    exact hagrees
  · intro hlast
    cases hwrites : e.unechoed.getLast? with
    | none =>
      refine hf.agrees ?_ (List.getLast?_eq_none_iff.1 hwrites)
      unfold underway
      rw [hquiet.noInFlight, hquiet.noPending]
      rfl
    | some w =>
      rw [hf.lastWrite w hwrites]
      exact hlast w hwrites

/-! ## A run that ends in disagreement -/

theorem isCoalesced_refl (drained : List Change) : IsCoalesced drained drained :=
  fun _ => ⟨List.Sublist.refl _, rfl⟩

/-- Of the changes of one document the last one alone may be handed over. -/
theorem isCoalesced_last {drained : List Change} {change : Change}
    (hdrained : ∀ c ∈ drained, c.file = change.file) :
    IsCoalesced (drained ++ [change]) [change] := by
  intro file
  refine ⟨?_, ?_⟩
  · rw [List.filter_append]
    exact List.sublist_append_right _ _
  · rw [newest?_concat, newest?_singleton]
    split
    · rfl
    · next hfile =>
      refine (newest?_eq_none_iff.2 ?_).symm
      intro c hc
      rw [hdrained c hc]
      exact hfile

/-- The status of the document `a.md`. -/
def statusTarget : Target := ⟨⟨"a.md"⟩, ⟨["status"]⟩⟩

/-- Metadata that has a status only. -/
def statusOnly (status : String) : Value := .mapping [(.string "status", .string status)]

/-- The declaration of a text field for the status. -/
def statusDeclaration : Declaration := ⟨.text, [], true, some "status", none⟩

/-- The control of that field, still empty. -/
def statusControl : Control :=
  { type := .text, title := none, classes := [], alignRight := false, role := .text none "",
    isMounted := true, current := .string "" }

/-- The entry of a text field for the status. -/
def statusEntry (lastKnown : String) (unechoed : List Value) : Entry :=
  { declaration := statusDeclaration, context := ⟨"a.md"⟩, binding := .resolved statusTarget,
    rule := .text, default := .string "", lastKnown := .string lastKnown, unechoed, mailbox := {} }

/-- A store with one document, and no entry yet. -/
def statusHost : Host :=
  { sync := { index := ({} : FileIndex).insert ⟨"a.md"⟩ }
    store := { documents := ⟨[(⟨"a.md"⟩, statusOnly "open")]⟩ } }

theorem isFresh_statusHost : statusHost.IsFresh := ⟨rfl, rfl, rfl, rfl⟩

/-- Changes of the document that set nothing but its status. -/
def statusChanges (statuses : List String) : List Change :=
  statuses.map fun status => ⟨⟨"a.md"⟩, statusOnly status⟩

/-- The host once the field is attached. -/
def statusRun (entry : Entry) (status : String) (pending inFlight : List String) : Host :=
  { sync := { registry := { entries := ⟨[(1, entry)]⟩, issued := 1 }
              index := ({} : FileIndex).insert ⟨"a.md"⟩ }
    store := { documents := ⟨[(⟨"a.md"⟩, statusOnly status)]⟩, pending := statusChanges pending }
    inFlight := statusChanges inFlight
    attached := ⟨[(1, .resolved statusTarget)]⟩ }

theorem reaches_status_done :
    Reaches statusHost (statusRun (statusEntry "done" [.string "done"]) "done" ["done"] []) := by
  have hattach : Step statusHost
      (statusRun { statusEntry "open" [] with mailbox := ⟨some (.string "open")⟩ } "open"
        [] []) := by
    convert Step.attach statusHost statusDeclaration ⟨"a.md"⟩ statusControl using 1
    decide +kernel
  refine (Relation.ReflTransGen.single hattach).tail ?_
  convert Step.edit _ 1 (.string "done") using 1
  decide +kernel

theorem agrees_iff_of_reaches_status_done :
    ∃ h e, Reaches statusHost h ∧ h.IsQuiet ∧ h.sync.registry.get? 1 = some e ∧
      e.rule.Agrees e.lastKnown (h.store.valueOr statusTarget e.default) := by
  have hdrain : Step (statusRun (statusEntry "done" [.string "done"]) "done" ["done"] [])
      (statusRun (statusEntry "done" [.string "done"]) "done" [] ["done"]) :=
    Step.drain _ (statusChanges ["done"]) (isCoalesced_refl _)
  have hnotify : Step (statusRun (statusEntry "done" [.string "done"]) "done" [] ["done"])
      (statusRun (statusEntry "done" []) "done" [] []) := by
    convert Step.notify (statusRun (statusEntry "done" [.string "done"]) "done" [] ["done"]) []
      ⟨⟨"a.md"⟩, statusOnly "done"⟩ [] rfl (by simp) using 1
    decide +kernel
  have hrun := (reaches_status_done.tail hdrain).tail hnotify
  have hentry : (statusRun (statusEntry "done" []) "done" [] []).sync.registry.get? 1 =
      some (statusEntry "done" []) := rfl
  refine ⟨_, _, hrun, ⟨rfl, rfl⟩, hentry, ?_⟩
  exact (agrees_iff_of_reaches isFresh_statusHost hrun ⟨rfl, rfl⟩ hentry rfl).2
    fun w hw => absurd hw (by simp [statusEntry])

/-- A field writes two values, somebody else writes the first one again, and only the last of these
changes is handed over: the field takes it for the echo of its first write, and goes on showing the
second one. -/
theorem exists_reaches_not_agrees :
    ¬ ∀ (h h' : Host), h.IsFresh → Reaches h h' → h'.IsQuiet → ∀ uid e t,
      h'.sync.registry.get? uid = some e → h'.attached.get? uid = some (.resolved t) →
        e.rule.Agrees e.lastKnown (h'.store.valueOr t e.default) := by
  intro hall
  have hlate : Step (statusRun (statusEntry "done" [.string "done"]) "done" ["done"] [])
      (statusRun (statusEntry "late" [.string "done", .string "late"]) "late"
        ["done", "late"] []) := by
    convert Step.edit _ 1 (.string "late") using 1
    decide +kernel
  have hother : Step
      (statusRun (statusEntry "late" [.string "done", .string "late"]) "late" ["done", "late"] [])
      (statusRun (statusEntry "late" [.string "done", .string "late"]) "done"
        ["done", "late", "done"] []) := by
    convert Step.replace _ ⟨"a.md"⟩ (statusOnly "done") using 1
    decide +kernel
  have hdrain : Step
      (statusRun (statusEntry "late" [.string "done", .string "late"]) "done"
        ["done", "late", "done"] [])
      (statusRun (statusEntry "late" [.string "done", .string "late"]) "done" [] ["done"]) := by
    have hlast : IsCoalesced (statusChanges ["done", "late"] ++ [⟨⟨"a.md"⟩, statusOnly "done"⟩])
        [⟨⟨"a.md"⟩, statusOnly "done"⟩] := isCoalesced_last (by decide)
    exact Step.drain _ _ hlast
  have hnotify : Step
      (statusRun (statusEntry "late" [.string "done", .string "late"]) "done" [] ["done"])
      (statusRun (statusEntry "late" [.string "late"]) "done" [] []) := by
    convert Step.notify
      (statusRun (statusEntry "late" [.string "done", .string "late"]) "done" [] ["done"]) []
      ⟨⟨"a.md"⟩, statusOnly "done"⟩ [] rfl (by simp) using 1
    decide +kernel
  have hrun := (((reaches_status_done.tail hlate).tail hother).tail hdrain).tail hnotify
  exact absurd (hall _ _ isFresh_statusHost hrun ⟨rfl, rfl⟩ 1 _ _ rfl rfl) (by decide +kernel)

end Host

end BoundFields
