import BoundFields.Proofs.Control.Equality
import BoundFields.Proofs.Sync.InStep

/-!
# Echoes that are overtaken

A change carries the whole document, so that somebody else's change of another field reports the
value of this one once more. Reported in front of the echo of a later write, that value is taken for
somebody else's: it voids the writes that are awaited, and is news unless it agrees with what the
entry knows. The changes before it, which the field made itself, come back one by one
(`Entry.receiveAll_echoes`); from it on, nothing is news exactly if every value that is reported
agrees with the last one known (`Entry.hears_eq_false_of_agrees`, `Entry.isThrough_of_not_hears`).
-/

set_option autoImplicit false

namespace BoundFields

/-- The values of the field at `t` that some changes report, one for each change of its document. -/
def reported (t : Target) (default : Value) (changes : List Change) : List Value :=
  (changes.filter (·.file = t.file)).map (·.valueOr t default)

@[simp] theorem reported_nil (t : Target) (default : Value) : reported t default [] = [] := rfl

theorem reported_cons (t : Target) (default : Value) (change : Change) (changes : List Change) :
    reported t default (change :: changes) =
      if change.file = t.file then change.valueOr t default :: reported t default changes
      else reported t default changes := by
  by_cases h : change.file = t.file
  · simp [reported, h]
  · simp [reported, h]

/-- The change that a write queues reports what was written. -/
theorem reported_write {root v : Value} {t : Target} (h : root.read? t.path = some v)
    (default : Value) : reported t default [⟨t.file, root⟩] = [v] := by
  rw [reported_cons, if_pos rfl, Change.valueOr_of_read? h, reported_nil]

theorem reported_append (t : Target) (default : Value) (old new : List Change) :
    reported t default (old ++ new) = reported t default old ++ reported t default new := by
  simp [reported]

namespace Entry

/-! ## Values one by one -/

/-- Whether one of the values is news to the entry, which receives them one by one. -/
def hears (e : Entry) : List Value → Bool
  | [] => false
  | v :: more => (e.receive v).1 || (e.receive v).2.hears more

/-- The entry that has received all values. -/
def receiveAll (e : Entry) : List Value → Entry
  | [] => e
  | v :: more => (e.receive v).2.receiveAll more

theorem hears_append (e : Entry) (vs ws : List Value) :
    e.hears (vs ++ ws) = (e.hears vs || (e.receiveAll vs).hears ws) := by
  induction vs generalizing e with
  | nil => rfl
  | cons v vs ih => simp [hears, receiveAll, ih, Bool.or_assoc]

theorem receiveAll_append (e : Entry) (vs ws : List Value) :
    e.receiveAll (vs ++ ws) = (e.receiveAll vs).receiveAll ws := by
  induction vs generalizing e with
  | nil => rfl
  | cons v vs ih => exact ih _

/-- What an entry that is bound makes of changes is what it makes of the values they report. -/
theorem told_eq_receiveAll {e : Entry} {t : Target} (ht : e.binding = .resolved t)
    (changes : List Change) : e.told changes = e.receiveAll (reported t e.default changes) := by
  induction changes generalizing e with
  | nil => rfl
  | cons change changes ih =>
    have hsame := sameField_notice e change
    have hnext := ih (hsame.binding.trans ht)
    rw [hsame.default] at hnext
    have htold : e.told (change :: changes) = (e.notice change).2.told changes := rfl
    rw [htold, hnext, reported_cons]
    by_cases hfile : change.file = t.file
    · rw [if_pos hfile, notice_of_file_eq ht hfile]
      rfl
    · rw [if_neg hfile, notice_of_file_ne ht hfile]

/-! ## Silence -/

/-- A value that is no news is the echo of a write that is awaited, or agrees with what is known. -/
theorem receive_cases_of_silent {e : Entry} {v : Value} (h : (e.receive v).1 = false) :
    (∃ front w rest, e.unechoed = front ++ w :: rest ∧ e.rule.eq w v = true ∧
      e.receive v = (false, { e with unechoed := rest })) ∨
    e.rule.eq e.lastKnown v = true ∧ e.receive v = (false, { e with unechoed := [] }) := by
  rcases e.receive_cases v with ⟨rest, hecho, heq⟩ | ⟨-, ⟨hknown, heq⟩ | heq⟩
  · obtain ⟨front, w, hsplit, hrule⟩ := exists_of_echoRest? hecho
    exact .inl ⟨front, w, rest, hsplit, hrule, heq⟩
  · exact .inr ⟨hknown, heq⟩
  · rw [heq] at h
    cases h

/-- Silence changes what an entry awaits, and nothing else. -/
theorem receiveAll_of_not_hears {e : Entry} {vs : List Value} (h : e.hears vs = false) :
    ∃ rest, e.receiveAll vs = { e with unechoed := rest } := by
  induction vs generalizing e with
  | nil => exact ⟨e.unechoed, rfl⟩
  | cons v vs ih =>
    obtain ⟨hfirst, hmore⟩ := Bool.or_eq_false_iff.1 h
    obtain ⟨rest, hrest⟩ := ih hmore
    rcases receive_cases_of_silent hfirst with ⟨front, w, later, -, -, heq⟩ | ⟨-, heq⟩
    · exact ⟨rest, by rw [receiveAll, hrest, heq]⟩
    · exact ⟨rest, by rw [receiveAll, hrest, heq]⟩

/-- The writes of the field come back in their order. -/
theorem receiveAll_echoes {e : Entry} {ws later : List Value} (hawaited : e.unechoed = ws ++ later)
    (hself : ∀ w ∈ ws, e.rule.eq w w = true) :
    e.hears ws = false ∧ e.receiveAll ws = { e with unechoed := later } := by
  induction ws generalizing e with
  | nil =>
    refine ⟨rfl, ?_⟩
    rw [← List.nil_append later, ← hawaited]
    rfl
  | cons w ws ih =>
    have hreceive : e.receive w = (false, { e with unechoed := ws ++ later }) := by
      have hecho : echoRest? e.rule w e.unechoed = some (ws ++ later) := by
        rw [hawaited, List.cons_append, echoRest?, if_pos (hself w List.mem_cons_self)]
      unfold receive
      rw [hecho]
    obtain ⟨hsilent, hall⟩ := @ih { e with unechoed := ws ++ later } rfl
      fun w' hw' => hself w' (List.mem_cons_of_mem w hw')
    rw [hears, receiveAll, hreceive]
    exact ⟨hsilent, hall⟩

/-- A value that agrees with what the entry knows is no news, whatever it awaits. -/
theorem receive_silent_of_agrees {e : Entry} {v : Value} (h : e.rule.eq e.lastKnown v = true) :
    (e.receive v).1 = false := by
  unfold receive
  cases echoRest? e.rule v e.unechoed with
  | some rest => rfl
  | none => simp [h]

theorem hears_eq_false_of_agrees {e : Entry} {vs : List Value}
    (h : ∀ v ∈ vs, e.rule.eq e.lastKnown v = true) : e.hears vs = false := by
  induction vs generalizing e with
  | nil => rfl
  | cons v vs ih =>
    have hfirst := receive_silent_of_agrees (h v List.mem_cons_self)
    have hmore (rest : List Value) : ({ e with unechoed := rest } : Entry).hears vs = false :=
      ih fun v' hv' => h v' (List.mem_cons_of_mem v hv')
    rw [hears, hfirst, Bool.false_or]
    rcases receive_cases_of_silent hfirst with ⟨front, w, rest, -, -, heq⟩ | ⟨-, heq⟩
    · rw [heq]
      exact hmore rest
    · rw [heq]
      exact hmore []

/-! ## Overtaken echoes -/

/-- What is left behind a write that is awaited stays behind the writes to come by one at least. -/
theorem isSuffix_tail_of_split {awaited front rest ws : List Value} {w : Value}
    (h : awaited <:+ ws) (hsplit : awaited = front ++ w :: rest) : rest <:+ ws.tail := by
  obtain ⟨before, rfl⟩ := h
  rw [hsplit, ← List.append_assoc]
  cases hfront : before ++ front with
  | nil => exact List.suffix_refl rest
  | cons b more => exact ⟨more ++ [w], by simp⟩

/-- What agrees with one of these writes agrees with what the entry knows, if the write does. -/
def PassesOn (e : Entry) (ws : List Value) : Prop :=
  ∀ w ∈ ws, ∀ v, e.rule.eq e.lastKnown w = true → e.rule.eq w v = true →
    e.rule.eq e.lastKnown v = true

/-- An entry that has received the values, with the writes to come among them, and heard nothing
awaits nothing any more, and agrees with all of them. -/
def IsThrough (e : Entry) (ws vs : List Value) : Prop :=
  (e.receiveAll vs).unechoed = [] ∧
    (e.PassesOn ws → ∀ v ∈ vs, e.rule.eq e.lastKnown v = true)

/-- One value in front: if it is taken for an echo, the write that it is taken for is still to come,
and agrees with what the entry knows for that reason. -/
theorem isThrough_cons {ws vs : List Value} {v : Value} (hws : ∀ w ∈ ws, w ∈ vs)
    (hmore : ∀ e : Entry, e.unechoed <:+ ws.tail → e.hears vs = false → e.IsThrough ws vs)
    {e : Entry} (hwithin : e.unechoed <:+ ws) (hsilent : e.hears (v :: vs) = false) :
    e.IsThrough ws (v :: vs) := by
  obtain ⟨hfirst, hrest⟩ := Bool.or_eq_false_iff.1 hsilent
  rcases receive_cases_of_silent hfirst with ⟨front, w, rest, hsplit, hrule, heq⟩ | ⟨hknown, heq⟩
  · rw [heq] at hrest
    obtain ⟨hnone, hagrees⟩ := hmore _ (isSuffix_tail_of_split hwithin hsplit) hrest
    refine ⟨?_, ?_⟩
    · rw [receiveAll, heq]
      exact hnone
    · intro hpasses v' hv'
      have hmem : w ∈ ws := hwithin.subset (by rw [hsplit]; simp)
      rcases List.mem_cons.1 hv' with rfl | hv'
      · exact hpasses w hmem v' (hagrees hpasses w (hws w hmem)) hrule
      · exact hagrees hpasses v' hv'
  · rw [heq] at hrest
    obtain ⟨hnone, hagrees⟩ := hmore _ (List.nil_suffix) hrest
    refine ⟨?_, ?_⟩
    · rw [receiveAll, heq]
      exact hnone
    · intro hpasses v' hv'
      rcases List.mem_cons.1 hv' with rfl | hv'
      · exact hknown
      · exact hagrees hpasses v' hv'

/-- An entry that awaits less than the writes to come will have got through with them. -/
theorem isThrough_of_awaits_less {ws vs : List Value} (hws : ws.Sublist vs) :
    ∀ e : Entry, e.unechoed <:+ ws.tail → e.hears vs = false → e.IsThrough ws vs := by
  induction hws with
  | slnil =>
    intro e hless _
    refine ⟨List.suffix_nil.1 hless, ?_⟩
    intro _ v hv
    cases hv
  | cons v hws ih =>
    intro e hless hsilent
    exact isThrough_cons (fun w hw => hws.subset hw) ih (hless.trans (List.tail_suffix _)) hsilent
  | cons_cons w hws ih =>
    intro e hless hsilent
    obtain ⟨hnone, hagrees⟩ := isThrough_cons (fun w hw => hws.subset hw) ih hless hsilent
    refine ⟨hnone, ?_⟩
    intro hpasses
    exact hagrees fun w' hw' => hpasses w' (List.mem_cons_of_mem w hw')

/-- Of the values that are reported behind the echoes of the first writes, the first is somebody
else's, and the writes to come are among the others. In silence the entry gets through with them. -/
theorem isThrough_of_not_hears {e : Entry} {v : Value} {ws vs : List Value} (hws : ws.Sublist vs)
    (hawaited : e.unechoed = ws) (hsilent : e.hears (v :: vs) = false) : e.IsThrough ws (v :: vs) :=
  isThrough_cons (fun _ hw => hws.subset hw) (isThrough_of_awaits_less hws)
    (hawaited ▸ List.suffix_refl ws) hsilent

/-! ## Entries ahead of what they are told -/

/-- The entry of a field that alone changes its value: it knows what the store holds, and awaits the
writes that are yet to be reported. Of these the first are reported first; `behind` is what is
reported from the first change on that the field did not make, and the other writes are among it. -/
structure IsAhead (role : Role) (t : Target) (store : Store) (behind : List Value) (e : Entry) :
    Prop where
  bound : e.binding = .resolved t
  rule : e.rule = role.rule
  default : e.default = role.default
  empty : e.mailbox = {}
  knows : e.lastKnown = store.valueOr t role.default
  awaits : ∃ echoes later, reported t role.default store.pending = echoes ++ behind ∧
    e.unechoed = echoes ++ later ∧ later.Sublist behind.tail
  equal : ∀ w ∈ e.unechoed, role.rule.eq w w = true
  stored : ∀ w ∈ e.unechoed, ∃ v, role.accept v = .ok w
  storedLast : e.unechoed ≠ [] → ∃ v, role.accept v = .ok e.lastKnown

section Ahead

variable {role : Role} {t : Target} {store : Store} {behind : List Value} {e : Entry}

/-- What a call queues for a field comes behind what is queued already. -/
theorem isAhead_queued (h : e.IsAhead role t store behind) {store' : Store} {new : List Change}
    (hpending : store'.pending = store.pending ++ new)
    (hvalue : store'.valueOr t role.default = store.valueOr t role.default) :
    e.IsAhead role t store' (behind ++ reported t role.default new) := by
  obtain ⟨echoes, later, hreported, hawaited, hlater⟩ := h.awaits
  refine ⟨h.bound, h.rule, h.default, h.empty, h.knows.trans hvalue.symm, ?_, h.equal, h.stored,
    h.storedLast⟩
  refine ⟨echoes, later, ?_, hawaited, ?_⟩
  · rw [hpending, reported_append, hreported, List.append_assoc]
  · exact hlater.trans ((List.sublist_append_left behind _).tail)

/-- A write of the field is awaited last, behind what somebody else's changes report. -/
theorem isAhead_wrote (h : e.IsAhead role t store behind) {v w root : Value}
    (haccept : role.accept v = .ok w) (hequal : role.rule.eq w w = true)
    (hroot : root.read? t.path = some w) :
    (e.wrote w).IsAhead role t (store.replace t.file root)
      (if behind = [] then [] else behind ++ [w]) := by
  obtain ⟨echoes, later, hreported, hawaited, hlater⟩ := h.awaits
  have hvalue := Change.valueOr_of_read? hroot t.file role.default
  have hnew : reported t role.default (store.replace t.file root).pending =
      echoes ++ behind ++ [w] := by
    have hpending : (store.replace t.file root).pending = store.pending ++ [⟨t.file, root⟩] := rfl
    rw [hpending, reported_append, hreported, reported_write hroot]
  have hunechoed : (e.wrote w).unechoed = echoes ++ later ++ [w] := by
    rw [← hawaited]
    rfl
  have hmem (w' : Value) (hw' : w' ∈ (e.wrote w).unechoed) : w' ∈ e.unechoed ∨ w' = w := by
    rcases List.mem_append.1 hw' with hold | hlast
    · exact .inl hold
    · exact .inr (List.mem_singleton.1 hlast)
  refine ⟨h.bound, h.rule, h.default, rfl, ?_, ?_, ?_, ?_, ?_⟩
  · rw [Store.valueOr_replace, if_pos rfl, hvalue]
    rfl
  · cases behind with
    | nil =>
      obtain rfl := List.sublist_nil.1 hlater
      refine ⟨echoes ++ [w], [], ?_, ?_, List.nil_sublist _⟩
      · simpa using hnew
      · simpa using hunechoed
    | cons first more =>
      refine ⟨echoes, later ++ [w], ?_, ?_, ?_⟩
      · rw [hnew, List.append_assoc, if_neg (List.cons_ne_nil _ _)]
      · rw [hunechoed, List.append_assoc]
      · rw [if_neg (List.cons_ne_nil _ _), List.cons_append, List.tail_cons]
        exact hlater.append (List.Sublist.refl [w])
  · intro w' hw'
    rcases hmem w' hw' with hold | rfl
    · exact h.equal w' hold
    · exact hequal
  · intro w' hw'
    rcases hmem w' hw' with hold | rfl
    · exact h.stored w' hold
    · exact ⟨v, haccept⟩
  · intro _
    exact ⟨v, haccept⟩

/-- The first writes come back as echoes, so that it is what is behind them that may be heard. -/
theorem hears_of_isAhead (h : e.IsAhead role t store behind) :
    ∃ later, later.Sublist behind.tail ∧ (∀ w ∈ later, w ∈ e.unechoed) ∧
      e.hears (reported t role.default store.pending) =
        ({ e with unechoed := later } : Entry).hears behind ∧
      e.receiveAll (reported t role.default store.pending) =
        ({ e with unechoed := later } : Entry).receiveAll behind := by
  obtain ⟨echoes, later, hreported, hawaited, hlater⟩ := h.awaits
  have hself : ∀ w ∈ echoes, e.rule.eq w w = true := by
    intro w hw
    rw [h.rule]
    exact h.equal w (by rw [hawaited]; exact List.mem_append_left _ hw)
  obtain ⟨hsilent, hall⟩ := receiveAll_echoes hawaited hself
  refine ⟨later, hlater, ?_, ?_, ?_⟩
  · intro w hw
    rw [hawaited]
    exact List.mem_append_right _ hw
  · rw [hreported, hears_append, hsilent, hall, Bool.false_or]
  · rw [hreported, receiveAll_append, hall]

/-- Nothing is heard if all that is reported behind the echoes agrees with what the store holds. -/
theorem not_hears_of_isAhead (h : e.IsAhead role t store behind)
    (hagrees : ∀ v ∈ behind, role.rule.eq (store.valueOr t role.default) v = true) :
    e.hears (reported t role.default store.pending) = false := by
  obtain ⟨later, -, -, hhears, -⟩ := hears_of_isAhead h
  rw [hhears]
  apply hears_eq_false_of_agrees
  intro v hv
  rw [← h.rule, ← h.knows] at hagrees
  exact hagrees v hv

/-- An entry that heard nothing awaits nothing any more. -/
theorem told_of_not_hears (h : e.IsAhead role t store behind)
    (hsilent : e.hears (reported t role.default store.pending) = false) :
    e.told store.pending = { e with unechoed := [] } := by
  obtain ⟨later, hlater, -, hhears, hall⟩ := hears_of_isAhead h
  have htold := told_eq_receiveAll h.bound store.pending
  rw [h.default] at htold
  rw [hhears] at hsilent
  rw [htold.trans hall]
  cases behind with
  | nil =>
    obtain rfl := List.sublist_nil.1 hlater
    rfl
  | cons v vs =>
    have hthrough : IsThrough { e with unechoed := later } later (v :: vs) :=
      isThrough_of_not_hears hlater rfl hsilent
    have hnone := hthrough.1
    obtain ⟨rest, hrest⟩ := receiveAll_of_not_hears hsilent
    rw [hrest] at hnone ⊢
    obtain rfl : rest = [] := hnone
    rfl

/-- An entry that heard nothing is ahead of nothing any more. -/
theorem isAhead_told (h : e.IsAhead role t store behind)
    (hsilent : e.hears (reported t role.default store.pending) = false) :
    (e.told store.pending).IsAhead role t { store with pending := [] } [] := by
  rw [told_of_not_hears h hsilent]
  refine ⟨h.bound, h.rule, h.default, h.empty, h.knows, ⟨[], [], rfl, rfl, List.Sublist.slnil⟩, ?_,
    ?_, ?_⟩
  · intro w hw
    cases hw
  · intro w hw
    cases hw
  · intro hne
    exact absurd rfl hne

/-- Only what agrees with what the store holds is reported behind the echoes without being heard,
if a control finds its values equal to the same values when they are equal. -/
theorem agrees_of_not_hears (h : e.IsAhead role t store behind) (hdefault : role.KeepsDefault)
    (hdates : role.RereadsItsDates)
    (hsilent : e.hears (reported t role.default store.pending) = false) :
    ∀ v ∈ behind, role.rule.eq (store.valueOr t role.default) v = true := by
  obtain ⟨later, hlater, hwithin, hhears, -⟩ := hears_of_isAhead h
  rw [hhears] at hsilent
  rw [← h.rule, ← h.knows]
  cases behind with
  | nil =>
    intro v hv
    cases hv
  | cons first more =>
    obtain ⟨-, hagrees⟩ := isThrough_of_not_hears hlater rfl hsilent
    apply hagrees
    intro w hw v hlast hv
    -- The value that is known was stored by the control, as were the writes that are awaited.
    have hmem := hwithin w hw
    obtain ⟨_, hknown⟩ := h.storedLast (List.ne_nil_of_mem hmem)
    obtain ⟨_, hwritten⟩ := h.stored w hmem
    simp only [h.rule] at hlast hv ⊢
    exact Role.eq_of_eq_of_accept hdefault hdates hknown hwritten hlast hv

end Ahead

end Entry

end BoundFields
