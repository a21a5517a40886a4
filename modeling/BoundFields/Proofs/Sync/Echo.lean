import Mathlib.Data.List.Induction
import BoundFields.Sync.Entry
import BoundFields.Proofs.Metadata.Queue

/-!
# What an entry makes of changes

A change either brings back a write of the field itself, or it voids all writes that are awaited and
leaves the entry with a value that agrees with the change (`Entry.receive_cases`). `Entry.told` is
the entry once it has been told all changes of a queue. Without awaited writes it ends up with the
value of the newest change (`Entry.agrees_told`); one more write of its own is awaited behind all
others or not at all (`Entry.told_wrote`).
-/

set_option autoImplicit false

namespace BoundFields

/-- Two values that the rule finds equal, or that are one. -/
def EqualityRule.Agrees (rule : EqualityRule) (a b : Value) : Prop := a = b ∨ rule.eq a b = true

instance (rule : EqualityRule) (a b : Value) : Decidable (rule.Agrees a b) :=
  inferInstanceAs (Decidable (_ ∨ _))

/-! ## Echoes -/

theorem exists_of_echoRest? {rule : EqualityRule} {v : Value} {writes rest : List Value}
    (h : echoRest? rule v writes = some rest) :
    ∃ front w, writes = front ++ w :: rest ∧ rule.eq w v = true := by
  induction writes with
  | nil => exact absurd h (by simp [echoRest?])
  | cons written more ih =>
    unfold echoRest? at h
    split at h
    · next heq =>
      obtain rfl := Option.some.inj h
      exact ⟨[], written, rfl, heq⟩
    · obtain ⟨front, w, rfl, heq⟩ := ih h
      exact ⟨written :: front, w, rfl, heq⟩

/-- A write behind the others comes back last. -/
theorem echoRest?_concat (rule : EqualityRule) (v w : Value) (writes : List Value) :
    echoRest? rule v (writes ++ [w]) =
      ((echoRest? rule v writes).map (· ++ [w])).or (if rule.eq w v then some [] else none) := by
  induction writes with
  | nil => rfl
  | cons written more ih =>
    rw [List.cons_append]
    unfold echoRest?
    split
    · rfl
    · exact ih

namespace Entry

/-- What becomes of an entry that receives a value: the value is an echo, or else no write is
awaited any more and the value is known already or news. -/
theorem receive_cases (e : Entry) (v : Value) :
    (∃ rest, echoRest? e.rule v e.unechoed = some rest ∧
      e.receive v = (false, { e with unechoed := rest })) ∨
    echoRest? e.rule v e.unechoed = none ∧
      ((e.rule.eq e.lastKnown v = true ∧ e.receive v = (false, { e with unechoed := [] })) ∨
        e.receive v =
          (true, { e with unechoed := [], lastKnown := v, mailbox := ⟨some v⟩ })) := by
  unfold receive
  cases hecho : echoRest? e.rule v e.unechoed with
  | some rest => exact .inl ⟨rest, rfl, rfl⟩
  | none =>
    refine .inr ⟨rfl, ?_⟩
    cases heq : e.rule.eq e.lastKnown v with
    | true => exact .inl ⟨rfl, by simp [heq]⟩
    | false => exact .inr (by simp [heq, Mailbox.post])

/-! ## What stays -/

/-- The parts of an entry that no change and no write touches. -/
structure SameField (e e' : Entry) : Prop where
  binding : e'.binding = e.binding
  rule : e'.rule = e.rule
  default : e'.default = e.default

/-- A value touches what an entry knows and awaits, and what waits for it. -/
theorem exists_receive_eq (e : Entry) (v : Value) : ∃ lastKnown unechoed mailbox,
    (e.receive v).2 = { e with lastKnown, unechoed, mailbox } := by
  rcases e.receive_cases v with ⟨rest, -, h⟩ | ⟨-, ⟨-, h⟩ | h⟩
  all_goals
    rw [h]
    exact ⟨_, _, _, rfl⟩

/-- So does a change, at most. -/
theorem exists_notice_eq (e : Entry) (change : Change) : ∃ lastKnown unechoed mailbox,
    (e.notice change).2 = { e with lastKnown, unechoed, mailbox } := by
  unfold notice
  split
  · split
    · exact exists_receive_eq e _
    · exact ⟨e.lastKnown, e.unechoed, e.mailbox, rfl⟩
  · exact ⟨e.lastKnown, e.unechoed, e.mailbox, rfl⟩

theorem sameField_notice (e : Entry) (change : Change) : e.SameField (e.notice change).2 := by
  obtain ⟨_, _, _, h⟩ := e.exists_notice_eq change
  rw [h]
  exact ⟨rfl, rfl, rfl⟩

/-- The mailbox is empty or holds the value that was posted last. -/
def IsPosted (e : Entry) : Prop :=
  e.mailbox.slot = none ∨ e.mailbox.slot = some e.lastKnown

theorem isPosted_receive {e : Entry} (h : e.IsPosted) (v : Value) : (e.receive v).2.IsPosted := by
  rcases e.receive_cases v with ⟨rest, -, heq⟩ | ⟨-, ⟨-, heq⟩ | heq⟩
  · rw [heq]
    exact h
  · rw [heq]
    exact h
  · rw [heq]
    exact .inr rfl

/-! ## Changes of the field's document -/

section Bound

variable {e : Entry} {t : Target}

theorem notice_of_file_eq (ht : e.binding = .resolved t) {change : Change}
    (hfile : change.file = t.file) :
    e.notice change = e.receive (change.valueOr t e.default) := by
  unfold notice target?
  simp only [ht, Binding.target?, hfile, if_true]
  rfl

theorem notice_of_file_ne (ht : e.binding = .resolved t) {change : Change}
    (hfile : change.file ≠ t.file) : e.notice change = (false, e) := by
  unfold notice target?
  simp only [ht, Binding.target?, Ne.symm hfile, if_false]

theorem isPosted_notice (h : e.IsPosted) (change : Change) : (e.notice change).2.IsPosted := by
  unfold notice
  split
  · split
    · exact isPosted_receive h _
    · exact h
  · exact h

end Bound

/-- The value of the last write that is awaited is the last value known, also behind an echo. -/
theorem lastKnown_of_receive {e : Entry} (v : Value)
    (hlast : ∀ w, e.unechoed.getLast? = some w → e.lastKnown = w) :
    ∀ w, (e.receive v).2.unechoed.getLast? = some w → (e.receive v).2.lastKnown = w := by
  intro w hw
  rcases e.receive_cases v with ⟨rest, hecho, heq⟩ | ⟨-, ⟨-, heq⟩ | heq⟩
  · rw [heq] at hw ⊢
    obtain ⟨front, written, hsplit, -⟩ := exists_of_echoRest? hecho
    refine hlast w ?_
    rw [hsplit, List.getLast?_append, List.getLast?_cons, hw]
    rfl
  · rw [heq] at hw
    cases hw
  · rw [heq] at hw
    cases hw

/-- An entry that received a value and awaits no write any more agrees with that value. -/
theorem agrees_of_receive {e : Entry} (v : Value)
    (hlast : ∀ w, e.unechoed.getLast? = some w → e.lastKnown = w)
    (hnone : (e.receive v).2.unechoed = []) : e.rule.Agrees (e.receive v).2.lastKnown v := by
  rcases e.receive_cases v with ⟨rest, hecho, heq⟩ | ⟨-, ⟨hknown, heq⟩ | heq⟩
  · rw [heq] at hnone ⊢
    obtain ⟨front, written, hsplit, hrule⟩ := exists_of_echoRest? hecho
    obtain rfl : rest = [] := hnone
    -- The echo is of the last write, whose value the entry knows.
    have hwritten : e.lastKnown = written := by
      refine hlast written ?_
      rw [hsplit, List.getLast?_concat]
    exact .inr (hwritten ▸ hrule)
  · rw [heq]
    exact .inr hknown
  · rw [heq]
    exact .inl rfl

/-- One write at most is awaited no longer once a value is received, whatever that is. -/
theorem unechoed_receive_eq_nil {e : Entry} (h : e.unechoed.length ≤ 1) (v : Value) :
    (e.receive v).2.unechoed = [] := by
  rcases e.receive_cases v with ⟨rest, hrest, heq⟩ | ⟨-, ⟨-, heq⟩ | heq⟩
  · obtain ⟨front, w, hsplit, -⟩ := exists_of_echoRest? hrest
    rw [hsplit, List.length_append, List.length_cons] at h
    have hnil : rest = [] := List.length_eq_zero_iff.1 (by omega)
    rw [heq]
    exact hnil
  · rw [heq]
  · rw [heq]

/-- An entry that awaits no write agrees with what it receives. -/
theorem agrees_receive {e : Entry} (h : e.unechoed = []) (v : Value) :
    (e.receive v).2.unechoed = [] ∧ e.rule.Agrees (e.receive v).2.lastKnown v := by
  have hnone : (e.receive v).2.unechoed = [] := unechoed_receive_eq_nil (by simp [h]) v
  refine ⟨hnone, agrees_of_receive v ?_ hnone⟩
  intro w hw
  rw [h] at hw
  cases hw

/-! ## Whole queues -/

/-- The entry that was told all changes of a queue. -/
def told (e : Entry) (changes : List Change) : Entry :=
  changes.foldl (fun e change => (e.notice change).2) e

@[simp] theorem told_nil (e : Entry) : e.told [] = e := rfl

theorem told_concat (e : Entry) (changes : List Change) (change : Change) :
    e.told (changes ++ [change]) = ((e.told changes).notice change).2 := by
  unfold told
  rw [List.foldl_append]
  rfl

theorem sameField_told (e : Entry) (changes : List Change) : e.SameField (e.told changes) := by
  induction changes using List.reverseRecOn with
  | nil => exact ⟨rfl, rfl, rfl⟩
  | append_singleton changes change ih =>
    rw [told_concat]
    have hlast := sameField_notice (e.told changes) change
    exact ⟨hlast.binding.trans ih.binding, hlast.rule.trans ih.rule, hlast.default.trans ih.default⟩

theorem isPosted_told {e : Entry} (h : e.IsPosted) (changes : List Change) :
    (e.told changes).IsPosted := by
  induction changes using List.reverseRecOn with
  | nil => exact h
  | append_singleton changes change ih =>
    rw [told_concat]
    exact isPosted_notice ih change

/-- An entry that awaits no write knows a value that agrees with the newest change in the end, and
keeps what it knows if there is none. -/
theorem agrees_told {e : Entry} {t : Target} (ht : e.binding = .resolved t) (h : e.unechoed = [])
    (changes : List Change) :
    (e.told changes).unechoed = [] ∧
      match newest? changes t.file with
      | some change => e.rule.Agrees (e.told changes).lastKnown (change.valueOr t e.default)
      | none => (e.told changes).lastKnown = e.lastKnown := by
  induction changes using List.reverseRecOn with
  | nil => exact ⟨h, rfl⟩
  | append_singleton changes change ih =>
    obtain ⟨hnone, hknown⟩ := ih
    have hsame := sameField_told e changes
    rw [told_concat, newest?_concat]
    by_cases hfile : change.file = t.file
    · rw [if_pos hfile, notice_of_file_eq (hsame.binding.trans ht) hfile, hsame.default]
      have hagrees := agrees_receive hnone (change.valueOr t e.default)
      rw [hsame.rule] at hagrees
      exact hagrees
    · rw [if_neg hfile, notice_of_file_ne (hsame.binding.trans ht) hfile]
      exact ⟨hnone, hknown⟩

/-- One more write behind those that an entry awaits is still behind them, or it is no longer
awaited, once both entries receive a value. -/
theorem receive_behind {e e' : Entry} {w : Value} (hrule : e'.rule = e.rule)
    (h : e'.unechoed = [] ∨ e'.unechoed = e.unechoed ++ [w] ∧ e'.lastKnown = w) (v : Value) :
    (e'.receive v).2.unechoed = [] ∨
      (e'.receive v).2.unechoed = (e.receive v).2.unechoed ++ [w] ∧
        (e'.receive v).2.lastKnown = w := by
  rcases h with hnone | ⟨hbehind, hknown⟩
  · exact .inl (agrees_receive hnone v).1
  · rcases e'.receive_cases v with ⟨rest, hecho, heq⟩ | ⟨-, ⟨-, heq⟩ | heq⟩
    · rw [hrule, hbehind, echoRest?_concat] at hecho
      rcases Option.or_eq_some_iff.1 hecho with hfront | ⟨-, hlast⟩
      · -- The echo is of a write before the last one, which the other entry awaits too.
        obtain ⟨rest', hrest', rfl⟩ := Option.map_eq_some_iff.1 hfront
        refine .inr ?_
        rw [heq]
        refine ⟨?_, hknown⟩
        unfold receive
        rw [hrest']
      · refine .inl ?_
        rw [heq]
        split at hlast
        · exact (Option.some.inj hlast).symm
        · exact absurd hlast (by simp)
    · rw [heq]
      exact .inl rfl
    · rw [heq]
      exact .inl rfl

/-- A write before a queue of changes is awaited behind all other writes once the entry has been
told the changes, unless one of them voided it or brought it back already. -/
theorem told_wrote (e : Entry) (v : Value) (changes : List Change) :
    ((e.wrote v).told changes).unechoed = [] ∨
      ((e.wrote v).told changes).unechoed = (e.told changes).unechoed ++ [v] ∧
        ((e.wrote v).told changes).lastKnown = v := by
  induction changes using List.reverseRecOn with
  | nil => exact .inr ⟨rfl, rfl⟩
  | append_singleton changes change ih =>
    have hsame := sameField_told e changes
    have hsame' := sameField_told (e.wrote v) changes
    rw [told_concat, told_concat]
    unfold notice target?
    rw [hsame.binding, hsame'.binding, hsame.default, hsame'.default]
    cases htarget : e.binding.target? with
    | none => simpa [wrote, htarget] using ih
    | some t =>
      by_cases hfile : t.file = change.file
      · -- Both entries receive one value, and the write stays last or is gone.
        simp only [wrote, htarget, hfile, if_true]
        exact receive_behind (hsame'.rule.trans hsame.rule.symm) ih _
      · simpa [wrote, htarget, hfile] using ih

end Entry

end BoundFields
