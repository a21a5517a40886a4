import BoundFields.Proofs.Sync.LateBinding
import BoundFields.Proofs.Sync.Notification
import BoundFields.Proofs.Sync.Overtaking

/-!
# Writes on their way

A ledger runs along with a feed and lists the changes on their way, each with the write that it
comes from (`Ledger.perform`). Whatever value an entry receives, it awaits the oldest of its writes
no longer (`Entry.unechoed_receive_isSuffix`), and the change that comes from a write of a field is
of the document that the field is bound in, so that it reaches the entry. So at any time an entry
awaits the newest of its writes on their way, and no other values (`Feed.isBacked_run`).
-/

set_option autoImplicit false

namespace BoundFields

/-! ## What an entry awaits -/

namespace Entry

/-- Whatever value is received, the oldest of the writes on their way is not awaited any more. -/
theorem unechoed_receive_isSuffix {e : Entry} {ws : List Value} (h : e.unechoed <:+ ws)
    (v : Value) : (e.receive v).2.unechoed <:+ ws.tail := by
  rcases e.receive_cases v with ⟨rest, hecho, heq⟩ | ⟨-, ⟨-, heq⟩ | heq⟩
  · obtain ⟨front, w, hsplit, -⟩ := exists_of_echoRest? hecho
    rw [heq]
    exact isSuffix_tail_of_split h hsplit
  · rw [heq]
    exact List.nil_suffix
  · rw [heq]
    exact List.nil_suffix

/-- Nor is it awaited after a change of the document that the entry is bound in. -/
theorem unechoed_notice_of_isBoundIn {e : Entry} {change : Change} {t : Target}
    (hbound : e.IsBoundIn change.file t) {ws : List Value} (h : e.unechoed <:+ ws) :
    (e.notice change).2.unechoed <:+ ws.tail := by
  rw [notice_of_file_eq hbound.1 hbound.2.symm]
  exact unechoed_receive_isSuffix h _

/-- A change adds no write to those that are awaited. -/
theorem unechoed_notice_isSuffix (e : Entry) (change : Change) :
    (e.notice change).2.unechoed <:+ e.unechoed := by
  rcases e.notice_cases change with ⟨t, -, -, hnews⟩ | ⟨-, rest, hrest, -, hold⟩
  · rw [hnews]
    exact List.nil_suffix
  · rw [hold]
    exact hrest

/-- Trying to bind an entry again has no part in what it awaits and what waits for it. -/
theorem unechoed_retry (e : Entry) (index : FileIndex) (policy : AmbiguityPolicy) :
    (e.retry index policy).unechoed = e.unechoed := by
  obtain ⟨binding, hretry⟩ := e.exists_retry_eq index policy
  rw [hretry]

theorem isPosted_retry {e : Entry} (h : e.IsPosted) (index : FileIndex)
    (policy : AmbiguityPolicy) : (e.retry index policy).IsPosted := by
  obtain ⟨binding, hretry⟩ := e.exists_retry_eq index policy
  rw [hretry]
  exact h

end Entry

/-! ## Changes and their writers -/

/-- A change on its way, with the number of the field that wrote it and the value that it wrote,
unless the change comes from elsewhere. -/
structure Dispatch where
  change : Change
  written : Option (Nat × Value)
deriving DecidableEq, Repr

/-- The value that the change brings back to the field with this number. -/
def Dispatch.writtenBy? (d : Dispatch) (uid : Nat) : Option Value :=
  (d.written.filter fun (writer, _) => writer = uid).map (·.2)

theorem Dispatch.writtenBy?_eq_some_iff {d : Dispatch} {uid : Nat} {v : Value} :
    d.writtenBy? uid = some v ↔ d.written = some (uid, v) := by
  unfold writtenBy?
  cases d.written with
  | none => simp
  | some write =>
    obtain ⟨writer, w⟩ := write
    simp [Option.filter, Prod.ext_iff]

/-- The values that a field wrote and whose changes are on their way, the oldest first. -/
def writesOf (uid : Nat) (dispatches : List Dispatch) : List Value :=
  dispatches.filterMap (·.writtenBy? uid)

theorem writesOf_cons (uid : Nat) (d : Dispatch) (later : List Dispatch) :
    writesOf uid (d :: later) = (d.writtenBy? uid).toList ++ writesOf uid later := by
  unfold writesOf
  cases h : d.writtenBy? uid with
  | none => exact List.filterMap_cons_none h
  | some v => exact List.filterMap_cons_some h

theorem writesOf_append (uid : Nat) (old new : List Dispatch) :
    writesOf uid (old ++ new) = writesOf uid old ++ writesOf uid new :=
  List.filterMap_append

theorem length_writesOf_le (uid : Nat) (dispatches : List Dispatch) :
    (writesOf uid dispatches).length ≤ dispatches.length :=
  List.length_filterMap_le _ dispatches

/-! ## Ledgers -/

namespace Feed

/-- The write that a call makes for a field. -/
def Call.written? : Call → Option (Nat × Value)
  | .edit uid v => some (uid, v)
  | _ => none

/-- The changes that a call puts on their way. -/
def sent (f : Feed) (call : Call) : List Change :=
  (f.perform call).host.store.pending.drop f.host.store.pending.length

/-- The changes that a call takes off their way: the oldest one, if it was drained before. -/
def handedOver (f : Feed) : Call → List Change
  | .notify => f.host.inFlight.take 1
  | _ => []

end Feed

/-- A feed with the changes on their way, the oldest first. -/
structure Ledger where
  feed : Feed
  dispatches : List Dispatch
deriving DecidableEq, Repr

namespace Ledger

/-- The ledger after a call. -/
def perform (l : Ledger) (call : Feed.Call) : Ledger where
  feed := l.feed.perform call
  dispatches := l.dispatches.drop (l.feed.handedOver call).length ++
    (l.feed.sent call).map fun change => ⟨change, call.written?⟩

/-- The ledger after some calls. -/
def run (l : Ledger) (calls : List Feed.Call) : Ledger := calls.foldl perform l

/-- The ledger of a feed; what is on its way already comes from no field. -/
def ofFeed (f : Feed) : Ledger where
  feed := f
  dispatches := f.host.underway.map fun change => ⟨change, none⟩

/-- A ledger does not interfere with its feed. -/
theorem feed_run (l : Ledger) (calls : List Feed.Call) :
    (l.run calls).feed = l.feed.run calls := by
  induction calls generalizing l with
  | nil => rfl
  | cons call more ih => exact ih (l.perform call)

/-- The entry of a field. -/
def entry? (l : Ledger) (uid : Nat) : Option Entry := l.feed.host.sync.registry.get? uid

/-! ## The invariant -/

/-- A number that was given out, and if its field is still there, the change is of the document that
the field is bound in, and carries the value there. -/
structure IsWriter (l : Ledger) (uid : Nat) (v : Value) (change : Change) : Prop where
  issued : uid ≤ l.feed.host.sync.registry.issued
  bound : ∀ e, l.entry? uid = some e →
    ∃ t, e.IsBoundIn change.file t ∧ change.snapshot.read? t.path = some v

/-- What every call keeps up: the ledger lists what is on its way, knows who wrote it, and every
entry awaits the last of its writes there. -/
structure Invariant (l : Ledger) : Prop where
  sound : l.feed.host.sync.registry.IsSound
  /-- The changes on their way are those of the feed. -/
  listed : l.dispatches.map (·.change) = l.feed.host.underway
  writers : ∀ d ∈ l.dispatches, ∀ uid v, d.written = some (uid, v) → l.IsWriter uid v d.change
  /-- What an entry awaits is the end of its writes on their way. -/
  awaits : ∀ uid e, l.entry? uid = some e → e.unechoed <:+ writesOf uid l.dispatches
  posted : ∀ uid e, l.entry? uid = some e → e.IsPosted

variable {l : Ledger}

theorem invariant_ofFeed {f : Feed} (hnone : f.host.sync.registry.entries = {}) :
    (ofFeed f).Invariant := by
  have hentry : ∀ uid e, entry? (ofFeed f) uid ≠ some e := by
    intro uid e he
    have hget : (f.host.sync.registry.entries).get? uid = some e := he
    rw [hnone] at hget
    cases hget
  refine ⟨?_, ?_, ?_, ?_, ?_⟩
  · have hkeys : f.host.sync.registry.uids = [] := congrArg Keyed.keys hnone
    refine ⟨?_, ?_⟩
    · show f.host.sync.registry.uids.Pairwise (· < ·)
      rw [hkeys]
      exact List.Pairwise.nil
    · show ∀ uid ∈ f.host.sync.registry.uids, _
      rw [hkeys]
      exact nofun
  · show (f.host.underway.map _).map _ = f.host.underway
    rw [List.map_map]
    exact List.map_id _
  · intro d hd uid v hwritten
    obtain ⟨change, -, rfl⟩ := List.mem_map.1 hd
    cases hwritten
  · intro uid e he
    exact absurd he (hentry uid e)
  · intro uid e he
    exact absurd he (hentry uid e)

/-! ## One call -/

/-- The numbers of a feed are given out as those of its synchronizer. -/
theorem isSound_perform (h : l.feed.host.sync.registry.IsSound) (call : Feed.Call) :
    (l.feed.perform call).host.sync.registry.IsSound := by
  cases call with
  | attach d context control =>
    exact Synchronizer.isSound_perform h (.attach d context control l.feed.host.store)
  | detach uid => exact Synchronizer.isSound_perform h (.detach uid)
  | setIndex index => exact h
  | take uid => exact Synchronizer.isSound_perform h (.take uid)
  | edit uid v => exact Synchronizer.isSound_perform h (.edit uid v l.feed.host.store)
  | write t v => exact h
  | replace file metadata => exact h
  | drain => exact h
  | notify =>
    rw [Feed.perform]
    cases l.feed.host.inFlight with
    | nil => exact h
    | cons change later => exact Synchronizer.isSound_perform h (.report change)

theorem sent_of_pending {call : Feed.Call} {new : List Change}
    (h : (l.feed.perform call).host.store.pending = l.feed.host.store.pending ++ new) :
    l.feed.sent call = new := by
  unfold Feed.sent
  rw [h, List.drop_left]

/-- Unless a call hands a change over, it only adds changes. -/
theorem perform_of_sent {call : Feed.Call} {new : List Change} (hsent : l.feed.sent call = new)
    (hnone : l.feed.handedOver call = []) :
    l.perform call =
      ⟨l.feed.perform call, l.dispatches ++ new.map fun change => ⟨change, call.written?⟩⟩ := by
  unfold perform
  rw [hsent, hnone]
  rfl

/-- A call that does neither leaves the list as it is. -/
theorem perform_of_sent_eq_nil {call : Feed.Call} (hsent : l.feed.sent call = [])
    (hnone : l.feed.handedOver call = []) :
    l.perform call = ⟨l.feed.perform call, l.dispatches⟩ := by
  rw [perform_of_sent hsent hnone, List.map_nil, List.append_nil]

theorem sent_eq_nil_of_pending {call : Feed.Call}
    (h : (l.feed.perform call).host.store.pending = l.feed.host.store.pending) :
    l.feed.sent call = [] :=
  sent_of_pending (h.trans (List.append_nil _).symm)

/-- A call that does nothing to the feed does nothing to the list either. -/
theorem perform_of_feed_eq {call : Feed.Call} (h : l.feed.perform call = l.feed)
    (hnone : l.feed.handedOver call = []) : l.perform call = l := by
  have hsent : l.feed.sent call = [] := sent_eq_nil_of_pending (by rw [h])
  rw [perform_of_sent_eq_nil hsent hnone, h]

/-- A call that adds no change may make a new entry, drop entries, and empty mailboxes. -/
theorem invariant_of_entries (h : l.Invariant) {f : Feed}
    (hsound : f.host.sync.registry.IsSound)
    (hissued : l.feed.host.sync.registry.issued ≤ f.host.sync.registry.issued)
    (hunderway : f.host.underway = l.feed.host.underway)
    (hentry : ∀ uid e', f.host.sync.registry.get? uid = some e' → e'.IsPosted ∧
      (l.feed.host.sync.registry.issued < uid ∧ e'.unechoed = [] ∨
        ∃ e, l.entry? uid = some e ∧ e'.binding = e.binding ∧ e'.unechoed = e.unechoed)) :
    Invariant ⟨f, l.dispatches⟩ := by
  refine ⟨hsound, h.listed.trans hunderway.symm, ?_, ?_, ?_⟩
  · intro d hd uid v hwritten
    have hwriter := h.writers d hd uid v hwritten
    refine ⟨Nat.le_trans hwriter.issued hissued, ?_⟩
    intro e' he'
    rcases (hentry uid e' he').2 with ⟨hnew, -⟩ | ⟨e, he, hbinding, -⟩
    · exact absurd hwriter.issued (Nat.not_le_of_lt hnew)
    · obtain ⟨t, ⟨hbound, hfile⟩, hcarried⟩ := hwriter.bound e he
      exact ⟨t, ⟨hbinding.trans hbound, hfile⟩, hcarried⟩
  · intro uid e' he'
    rcases (hentry uid e' he').2 with ⟨-, hnone⟩ | ⟨e, he, -, hunechoed⟩
    · rw [hnone]
      exact List.nil_suffix
    · rw [hunechoed]
      exact h.awaits uid e he
  · intro uid e' he'
    exact (hentry uid e' he').1

/-- A change that comes from no field is awaited by none. -/
theorem invariant_queued (h : l.Invariant) {f : Feed} (change : Change)
    (hregistry : f.host.sync.registry = l.feed.host.sync.registry)
    (hunderway : f.host.underway = l.feed.host.underway ++ [change]) :
    Invariant ⟨f, l.dispatches ++ [⟨change, none⟩]⟩ := by
  have hentry (uid : Nat) : entry? ⟨f, l.dispatches ++ [⟨change, none⟩]⟩ uid = l.entry? uid :=
    congrArg (·.get? uid) hregistry
  have hwrites (uid : Nat) : writesOf uid (l.dispatches ++ [⟨change, none⟩]) =
      writesOf uid l.dispatches := by
    rw [writesOf_append]
    exact List.append_nil _
  refine ⟨?_, ?_, ?_, ?_, ?_⟩
  · show f.host.sync.registry.IsSound
    rw [hregistry]
    exact h.sound
  · rw [List.map_append, h.listed, hunderway]
    rfl
  · intro d hd uid v hwritten
    rcases List.mem_append.1 hd with hold | hnew
    · have hwriter := h.writers d hold uid v hwritten
      refine ⟨?_, ?_⟩
      · rw [hregistry]
        exact hwriter.issued
      · rw [hentry]
        exact hwriter.bound
    · obtain rfl := List.mem_singleton.1 hnew
      cases hwritten
  · intro uid e he
    rw [hentry] at he
    rw [hwrites]
    exact h.awaits uid e he
  · intro uid e he
    rw [hentry] at he
    exact h.posted uid e he

/-- A write of a field is awaited behind the others, and goes on its way behind the others. -/
theorem invariant_wrote (h : l.Invariant) {f : Feed} {uid : Nat} {e : Entry} {t : Target}
    {v root : Value} (he : l.entry? uid = some e) (ht : e.binding = .resolved t)
    (hroot : root.read? t.path = some v)
    (hregistry : f.host.sync.registry = l.feed.host.sync.registry.set uid (e.wrote v))
    (hunderway : f.host.underway = l.feed.host.underway ++ [⟨t.file, root⟩])
    (hsound : f.host.sync.registry.IsSound) :
    Invariant ⟨f, l.dispatches ++ [⟨⟨t.file, root⟩, some (uid, v)⟩]⟩ := by
  have hentry (other : Nat) :
      entry? ⟨f, l.dispatches ++ [⟨⟨t.file, root⟩, some (uid, v)⟩]⟩ other =
        if uid = other then some (e.wrote v) else l.entry? other := by
    show f.host.sync.registry.get? other = _
    rw [hregistry, Registry.get?_set]
    rfl
  have hissued : f.host.sync.registry.issued = l.feed.host.sync.registry.issued :=
    congrArg (·.issued) hregistry
  refine ⟨hsound, ?_, ?_, ?_, ?_⟩
  · rw [List.map_append, h.listed, hunderway]
    rfl
  · intro d hd writer w hwritten
    -- The binding of the field is not touched, and it is bound where it writes.
    have hwriter : l.IsWriter writer w d.change := by
      rcases List.mem_append.1 hd with hold | hnew
      · exact h.writers d hold writer w hwritten
      · obtain rfl := List.mem_singleton.1 hnew
        obtain ⟨rfl, rfl⟩ := Prod.mk.inj (Option.some.inj hwritten)
        refine ⟨h.sound.le_issued he, ?_⟩
        intro e' he'
        obtain rfl := Option.some.inj (he.symm.trans he')
        exact ⟨t, ⟨ht, rfl⟩, hroot⟩
    refine ⟨hwriter.issued.trans_eq hissued.symm, ?_⟩
    intro e' he'
    rw [hentry] at he'
    by_cases hown : uid = writer
    · rw [if_pos hown] at he'
      obtain rfl := Option.some.inj he'
      exact hwriter.bound e (hown ▸ he)
    · rw [if_neg hown] at he'
      exact hwriter.bound e' he'
  · intro other e' he'
    rw [hentry] at he'
    rw [writesOf_append]
    by_cases hown : uid = other
    · subst hown
      rw [if_pos rfl] at he'
      obtain rfl := Option.some.inj he'
      have hlast : writesOf uid [⟨⟨t.file, root⟩, some (uid, v)⟩] = [v] := by
        simp [writesOf, Dispatch.writtenBy?]
      obtain ⟨front, hfront⟩ := h.awaits uid e he
      refine ⟨front, ?_⟩
      rw [hlast, ← hfront]
      exact (List.append_assoc front e.unechoed [v]).symm
    · rw [if_neg hown] at he'
      have hlast : writesOf other [⟨⟨t.file, root⟩, some (uid, v)⟩] = [] := by
        simp [writesOf, Dispatch.writtenBy?, hown]
      rw [hlast, List.append_nil]
      exact h.awaits other e' he'
  · intro other e' he'
    rw [hentry] at he'
    by_cases hown : uid = other
    · rw [if_pos hown] at he'
      obtain rfl := Option.some.inj he'
      exact .inl rfl
    · rw [if_neg hown] at he'
      exact h.posted other e' he'

/-- A change that is handed over reaches the entry that wrote it, which awaits the oldest of its
writes no longer; any other entry awaits less than before, if anything changes for it. -/
theorem invariant_notified (h : l.Invariant) {f : Feed} {d : Dispatch} {later : List Dispatch}
    (hfirst : l.dispatches = d :: later)
    (hsync : f.host.sync = (l.feed.host.sync.onChange d.change).2)
    (hunderway : l.feed.host.underway = d.change :: f.host.underway)
    (hsound : f.host.sync.registry.IsSound) : Invariant ⟨f, later⟩ := by
  have hentry {uid : Nat} {e' : Entry} (he' : f.host.sync.registry.get? uid = some e') :
      ∃ e, l.entry? uid = some e ∧ e' = (l.feed.host.sync.tell d.change e).2 := by
    rw [hsync, Synchronizer.get?_onChange] at he'
    obtain ⟨e, he, rfl⟩ := Option.map_eq_some_iff.1 he'
    exact ⟨e, he, rfl⟩
  refine ⟨hsound, ?_, ?_, ?_, ?_⟩
  · have hlisted := h.listed
    rw [hfirst, hunderway, List.map_cons] at hlisted
    exact (List.cons.inj hlisted).2
  · intro d' hd' uid v hwritten
    have hwriter := h.writers d' (hfirst ▸ List.mem_cons_of_mem d hd') uid v hwritten
    refine ⟨?_, ?_⟩
    · rw [hsync]
      exact hwriter.issued
    · intro e' he'
      obtain ⟨e, he, rfl⟩ := hentry he'
      obtain ⟨t, ⟨hbound, hfile⟩, hcarried⟩ := hwriter.bound e he
      exact ⟨t, ⟨(e.remains_noticed _ _ d.change).binding hbound, hfile⟩, hcarried⟩
  · intro uid e' he'
    obtain ⟨e, he, rfl⟩ := hentry he'
    have hawaits := h.awaits uid e he
    rw [hfirst, writesOf_cons] at hawaits
    unfold Synchronizer.tell
    cases hwritten : d.writtenBy? uid with
    | none =>
      rw [hwritten] at hawaits
      have hfewer := Entry.unechoed_notice_isSuffix
        (e.retry (l.feed.host.sync.index.insert d.change.file) l.feed.host.sync.policy) d.change
      rw [Entry.unechoed_retry] at hfewer
      exact hfewer.trans hawaits
    | some v =>
      -- The oldest write on its way comes back, and the entry is bound where it was written.
      rw [hwritten] at hawaits
      have hwriter := h.writers d (hfirst ▸ List.mem_cons_self) uid v
        (Dispatch.writtenBy?_eq_some_iff.1 hwritten)
      obtain ⟨t, hin, -⟩ := hwriter.bound e he
      rw [Entry.retry_of_resolved hin.1]
      exact Entry.unechoed_notice_of_isBoundIn hin hawaits
  · intro uid e' he'
    obtain ⟨e, he, rfl⟩ := hentry he'
    exact Entry.isPosted_notice (Entry.isPosted_retry (h.posted uid e he) _ _) d.change

/-! ## Calls -/

theorem invariant_attach (h : l.Invariant) (d : Declaration) (context : FileRef)
    (control : Control) : (l.perform (.attach d context control)).Invariant := by
  have hnothing : l.feed.sent (.attach d context control) = [] := sent_eq_nil_of_pending rfl
  rw [perform_of_sent_eq_nil hnothing rfl]
  apply invariant_of_entries h (isSound_perform h.sound _) (Nat.le_succ _) rfl
  intro uid e' he'
  have hget := (Synchronizer.get?_attach l.feed.host.sync d context control l.feed.host.store
    uid).symm.trans he'
  split at hget
  · next hnew =>
    obtain rfl := Option.some.inj hget
    exact ⟨.inr rfl, .inl ⟨Nat.lt_of_succ_le (Nat.le_of_eq hnew), rfl⟩⟩
  · exact ⟨h.posted uid e' hget, .inr ⟨e', hget, rfl, rfl⟩⟩

theorem invariant_detach (h : l.Invariant) (uid : Nat) : (l.perform (.detach uid)).Invariant := by
  have hnothing : l.feed.sent (.detach uid) = [] := sent_eq_nil_of_pending rfl
  rw [perform_of_sent_eq_nil hnothing rfl]
  apply invariant_of_entries h (isSound_perform h.sound _) (Nat.le_refl _) rfl
  intro other e' he'
  have hget := (Synchronizer.get?_detach l.feed.host.sync uid other).symm.trans he'
  split at hget
  · cases hget
  · exact ⟨h.posted other e' hget, .inr ⟨e', hget, rfl, rfl⟩⟩

theorem invariant_setIndex (h : l.Invariant) (index : FileIndex) :
    (l.perform (.setIndex index)).Invariant := by
  have hnothing : l.feed.sent (.setIndex index) = [] := sent_eq_nil_of_pending rfl
  rw [perform_of_sent_eq_nil hnothing rfl]
  apply invariant_of_entries h (isSound_perform h.sound _) (Nat.le_refl _) rfl
  intro uid e' he'
  exact ⟨h.posted uid e' he', .inr ⟨e', he', rfl, rfl⟩⟩

theorem invariant_take (h : l.Invariant) (uid : Nat) : (l.perform (.take uid)).Invariant := by
  have hnothing : l.feed.sent (.take uid) = [] := sent_eq_nil_of_pending rfl
  have hsound := isSound_perform h.sound (.take uid)
  rw [perform_of_sent_eq_nil hnothing rfl]
  apply invariant_of_entries h hsound ?_ rfl
  · intro other e' he'
    have hget : (l.feed.host.sync.takePending uid).2.registry.get? other = some e' := he'
    cases he : l.entry? uid with
    | none =>
      rw [Synchronizer.takePending_of_get?_eq_none he] at hget
      exact ⟨h.posted other e' hget, .inr ⟨e', hget, rfl, rfl⟩⟩
    | some e =>
      rw [Synchronizer.takePending_of_get? he, Registry.get?_set] at hget
      split at hget
      · next hown =>
        obtain rfl := Option.some.inj hget
        exact ⟨.inl rfl, .inr ⟨e, hown ▸ he, rfl, rfl⟩⟩
      · exact ⟨h.posted other e' hget, .inr ⟨e', hget, rfl, rfl⟩⟩
  · exact Nat.le_of_eq (l.feed.host.sync.keepsFields_takePending uid).issued.symm

theorem invariant_edit (h : l.Invariant) (uid : Nat) (v : Value) :
    (l.perform (.edit uid v)).Invariant := by
  have hsound := isSound_perform h.sound (.edit uid v)
  rcases l.feed.host.sync.onEdit_cases uid v l.feed.host.store with
    ⟨hedit, -⟩ | ⟨e, t, he, ht, ⟨root, hroot, hedit⟩ | ⟨error, hedit⟩⟩
  · have hnothing : l.feed.perform (.edit uid v) = l.feed := by
      simp only [Feed.perform, hedit]
    rw [perform_of_feed_eq hnothing rfl]
    exact h
  · have hcall : (l.feed.perform (.edit uid v)).host = { l.feed.host with
        sync := { l.feed.host.sync with
          registry := l.feed.host.sync.registry.set uid (e.wrote v) }
        store := l.feed.host.store.replace t.file root } := by
      simp only [Feed.perform, hedit]
    have hone : l.feed.sent (.edit uid v) = [⟨t.file, root⟩] :=
      sent_of_pending (by rw [hcall]; rfl)
    rw [perform_of_sent hone rfl]
    apply invariant_wrote h he ht hroot (by rw [hcall]) ?_ hsound
    rw [hcall]
    exact Host.underway_replace l.feed.host t.file root
  · have hnothing : l.feed.perform (.edit uid v) = l.feed := by
      simp only [Feed.perform, hedit]
    rw [perform_of_feed_eq hnothing rfl]
    exact h

theorem invariant_replace (h : l.Invariant) (file : FileRef) (metadata : Value) :
    (l.perform (.replace file metadata)).Invariant := by
  have hone : l.feed.sent (.replace file metadata) = [⟨file, metadata⟩] := sent_of_pending rfl
  rw [perform_of_sent hone rfl]
  exact invariant_queued h ⟨file, metadata⟩ rfl (Host.underway_replace l.feed.host file metadata)

theorem invariant_write (h : l.Invariant) (t : Target) (v : Value) :
    (l.perform (.write t v)).Invariant := by
  rcases l.feed.host.store.write_cases t v with ⟨root, -, hwrite⟩ | ⟨error, hwrite⟩
  · have hcall : (l.feed.perform (.write t v)).host =
        { l.feed.host with store := l.feed.host.store.replace t.file root } := by
      simp only [Feed.perform, hwrite]
    have hone : l.feed.sent (.write t v) = [⟨t.file, root⟩] :=
      sent_of_pending (by rw [hcall]; rfl)
    have hunderway : (l.feed.perform (.write t v)).host.underway =
        l.feed.host.underway ++ [⟨t.file, root⟩] := by
      rw [hcall]
      exact Host.underway_replace l.feed.host t.file root
    rw [perform_of_sent hone rfl]
    exact invariant_queued h ⟨t.file, root⟩ rfl hunderway
  · have hnothing : l.feed.perform (.write t v) = l.feed := by
      simp only [Feed.perform, hwrite]
    rw [perform_of_feed_eq hnothing rfl]
    exact h

theorem invariant_drain (h : l.Invariant) : (l.perform .drain).Invariant := by
  have hnothing : l.feed.sent .drain = [] := List.drop_nil
  rw [perform_of_sent_eq_nil hnothing rfl]
  have hunderway : (l.feed.perform .drain).host.underway = l.feed.host.underway :=
    congrArg (·.pending) (Feed.undelivered_drain l.feed)
  apply invariant_of_entries h (isSound_perform h.sound _) (Nat.le_refl _) hunderway
  intro uid e' he'
  exact ⟨h.posted uid e' he', .inr ⟨e', he', rfl, rfl⟩⟩

theorem invariant_notify (h : l.Invariant) : (l.perform .notify).Invariant := by
  have hsound := isSound_perform h.sound .notify
  cases hnext : l.feed.host.inFlight with
  | nil =>
    have hnothing : l.feed.perform .notify = l.feed := by
      simp only [Feed.perform, hnext]
    rw [perform_of_feed_eq hnothing (by simp only [Feed.handedOver, hnext, List.take_nil])]
    exact h
  | cons change later =>
    have hlisted := h.listed
    rw [Host.underway, hnext, List.cons_append] at hlisted
    obtain ⟨d, dispatches, hfirst, rfl, -⟩ := List.map_eq_cons_iff.1 hlisted
    have hnothing : l.feed.sent .notify = [] := by
      apply sent_eq_nil_of_pending
      simp only [Feed.perform, hnext]
    have hcall : l.perform .notify = ⟨l.feed.perform .notify, dispatches⟩ := by
      unfold perform
      rw [hnothing, hfirst]
      simp [Feed.handedOver, hnext]
    rw [hcall]
    apply invariant_notified h hfirst ?_ ?_ hsound
    · simp only [Feed.perform, hnext]
    · simp only [Feed.perform, Host.underway, hnext, List.cons_append]

theorem invariant_perform (h : l.Invariant) (call : Feed.Call) : (l.perform call).Invariant := by
  cases call with
  | attach d context control => exact invariant_attach h d context control
  | detach uid => exact invariant_detach h uid
  | setIndex index => exact invariant_setIndex h index
  | take uid => exact invariant_take h uid
  | edit uid v => exact invariant_edit h uid v
  | write t v => exact invariant_write h t v
  | replace file metadata => exact invariant_replace h file metadata
  | drain => exact invariant_drain h
  | notify => exact invariant_notify h

theorem invariant_run (h : l.Invariant) (calls : List Feed.Call) : (l.run calls).Invariant := by
  induction calls generalizing l with
  | nil => exact h
  | cons call more ih => exact ih (invariant_perform h call)

end Ledger

/-! ## Runs -/

namespace Feed

/-- The changes that are on their way after some calls, each with the write that it comes from. -/
def dispatches (f : Feed) (calls : List Call) : List Dispatch :=
  ((Ledger.ofFeed f).run calls).dispatches

/-- What holds of the fields that are live after some calls. -/
structure IsBacked (f : Feed) (calls : List Call) : Prop where
  /-- The changes on their way are all that were not handed over. -/
  listed : (f.dispatches calls).map (·.change) = (f.run calls).host.underway
  /-- A write on its way is in the document that its field is bound in, and carried by its
  change. -/
  carried : ∀ d ∈ f.dispatches calls, ∀ uid v e, d.written = some (uid, v) →
    (f.run calls).host.sync.registry.get? uid = some e →
      ∃ t, e.IsBoundIn d.change.file t ∧ d.change.snapshot.read? t.path = some v
  /-- A field awaits the newest of its writes on their way, in their order. -/
  awaited : ∀ uid e, (f.run calls).host.sync.registry.get? uid = some e →
    e.unechoed <:+ writesOf uid (f.dispatches calls)
  /-- So it never awaits more than is on its way. -/
  bounded : ∀ uid e, (f.run calls).host.sync.registry.get? uid = some e →
    e.unechoed.length ≤ (f.run calls).host.underway.length
  echoed : (f.run calls).host.IsQuiet → ∀ uid e,
    (f.run calls).host.sync.registry.get? uid = some e → e.unechoed = []
  /-- What waits in a mailbox is the last value known. -/
  posted : ∀ uid e v, (f.run calls).host.sync.registry.get? uid = some e →
    e.mailbox.slot = some v → v = e.lastKnown

/-- What an entry awaits is on its way, so that it cannot outnumber what is on its way. -/
theorem length_unechoed_le {f : Feed} {calls : List Call} {uid : Nat} {e : Entry}
    (hlisted : (f.dispatches calls).map (·.change) = (f.run calls).host.underway)
    (hawaited : e.unechoed <:+ writesOf uid (f.dispatches calls)) :
    e.unechoed.length ≤ (f.run calls).host.underway.length :=
  calc e.unechoed.length
    _ ≤ (writesOf uid (f.dispatches calls)).length := hawaited.length_le
    _ ≤ (f.dispatches calls).length := length_writesOf_le uid _
    _ = (f.run calls).host.underway.length := by rw [← hlisted, List.length_map]

theorem isBacked_of_invariant {f : Feed} {calls : List Call}
    (h : ((Ledger.ofFeed f).run calls).Invariant) : f.IsBacked calls := by
  have hfeed := (Ledger.ofFeed f).feed_run calls
  have hentry (uid : Nat) : Ledger.entry? ((Ledger.ofFeed f).run calls) uid =
      (f.run calls).host.sync.registry.get? uid :=
    congrArg (·.host.sync.registry.get? uid) hfeed
  have hlisted := h.listed.trans (congrArg (·.host.underway) hfeed)
  have hawaited (uid : Nat) (e : Entry)
      (he : (f.run calls).host.sync.registry.get? uid = some e) :
      e.unechoed <:+ writesOf uid (f.dispatches calls) :=
    h.awaits uid e ((hentry uid).trans he)
  refine ⟨hlisted, ?_, hawaited, ?_, ?_, ?_⟩
  · intro d hd uid v e hwritten he
    exact (h.writers d hd uid v hwritten).bound e ((hentry uid).trans he)
  · intro uid e he
    exact length_unechoed_le hlisted (hawaited uid e he)
  · intro hquiet uid e he
    have hle := length_unechoed_le hlisted (hawaited uid e he)
    rw [Host.underway, hquiet.noInFlight, hquiet.noPending] at hle
    exact List.eq_nil_of_length_eq_zero (Nat.le_zero.1 hle)
  · intro uid e v he hslot
    rcases h.posted uid e ((hentry uid).trans he) with hnone | hsome
    · rw [hnone] at hslot
      cases hslot
    · exact Option.some.inj (hslot.symm.trans hsome)

/-- Fields await nothing but their own writes, and these no longer than they are on their way. -/
theorem isBacked_run (index : FileIndex) (policy : AmbiguityPolicy) (store : Store)
    (calls : List Call) : IsBacked { host := { sync := { index, policy }, store } } calls :=
  isBacked_of_invariant (Ledger.invariant_run (Ledger.invariant_ofFeed rfl) calls)

/-- A field may await less than is on its way: a change that somebody else made in front of its
write voids the write. -/
example :
    let f : Feed := { host := Host.statusHost }
    let calls : List Call :=
      [.attach Host.statusDeclaration ⟨"a.md"⟩ Host.statusControl,
        .replace ⟨"a.md"⟩ (Host.statusOnly "closed"), .edit 1 (.string "done"), .drain, .notify]
    ((f.run calls).host.sync.registry.get? 1).map (·.unechoed) = some [] ∧
      writesOf 1 (f.dispatches calls) = [.string "done"] := by
  decide +kernel

end Feed

end BoundFields
